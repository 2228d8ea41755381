import WebrtcCaller.System.Membership

/-!
# Room confinement

The server relays between any two connected sessions without looking at rooms.
What keeps an outsider away from an honest client is the combination of two
things: the server writes the sender's id over `socketId`, and the client looks
that id up among the peers it has heard of, all of them announced by joins to
its own room. Nothing is assumed about the other sessions.
-/

namespace WebrtcCaller

variable {D : Type}

/-- The event name and data of a signalling text. -/
def Text.event (text : Text D) : Option (String × Fields D) :=
  match text.tree with
  | some (.obj fs) =>
    match Fields.get fs "eventName", Fields.get fs "data" with
    | .str eventName, .obj data => some (eventName, data)
    | _, _ => none
  | _ => none

variable [JavaDouble D]

/-- A signalling text carries its event and the members that were written. -/
theorem Text.event_tree (eventName : String) (data : Fields D) :
    (Text.ofJson (SignallingData.tree ⟨some eventName, some data⟩)).event =
      some (eventName, Fields.written data) := by
  rw [Text.event, Text.ofJson_tree, SignallingData.written_tree]
  rfl

/-- A join of `x` to the room `r` is among the executed callbacks. -/
def Joined (served : List (ServerEvent D)) (x : Session) (r : String) : Prop :=
  ∃ event ∈ served, event.session = x ∧ event.joins = some r

/-- What has joined has joined for good. -/
theorem Joined.append {served : List (ServerEvent D)} {x : Session} {r : String}
    (h : Joined served x r) (events : List (ServerEvent D)) : Joined (served ++ events) x r := by
  obtain ⟨event, hmem, he⟩ := h
  exact ⟨event, List.mem_append_left _ hmem, he⟩

/-- The texts that can reach a client, when `K` is what is known of the announced ids. -/
inductive Genuine (K : String → Prop) : Delivery D → Prop
  | newPeer {cause x : Session} (hx : K x.id) :
      Genuine K ⟨cause, .ofJson (SignallingServer.newPeer x).tree⟩
  | peers {cause h : Session} {ids : List String} (hids : ∀ id ∈ ids, K id) :
      Genuine K ⟨cause, .ofJson (SignallingServer.peers ids h).tree⟩
  | removePeer {cause x : Session} :
      Genuine K ⟨cause, .ofJson (SignallingServer.removePeer x).tree⟩
  | relayed {cause : Session} {event : String × List String} {data : Fields D}
      (hmem : event ∈ SignallingServer.relays) :
      Genuine K ⟨cause, .ofJson (SignallingServer.relayed event.1 event.2 data cause).tree⟩

namespace Genuine

variable {K K' : String → Prop} {d : Delivery D}

theorem mono (h : Genuine K d) (hK : ∀ id, K id → K' id) : Genuine K' d := by
  cases h with
  | newPeer hx => exact .newPeer (hK _ hx)
  | peers hids => exact .peers fun id hid => hK id (hids id hid)
  | removePeer => exact .removePeer
  | relayed hmem => exact .relayed hmem

/-- A genuine text announces only what is known. -/
theorem named (h : Genuine K d) {env : Setting D} {signal : Signal}
    (hs : env.signal d.text = some signal) : ∀ id ∈ signal.named, ∃ i, id = some i ∧ K i := by
  intro id hid
  cases h with
  | @newPeer cause x hx =>
    obtain rfl := Option.some.inj ((env.signal_newPeer x).symm.trans hs)
    exact ⟨x.id, List.mem_singleton.mp hid, hx⟩
  | @peers cause h ids hids =>
    obtain rfl := Option.some.inj ((env.signal_peers ids h).symm.trans hs)
    obtain ⟨i, hi, rfl⟩ := List.mem_map.mp hid
    exact ⟨i, rfl, hids i hi⟩
  | @removePeer cause x =>
    obtain rfl := Option.some.inj ((env.signal_removePeer x).symm.trans hs)
    cases hid
  | relayed hmem =>
    rw [Signal.named_of_sender (env.sender_of_relayed hmem hs)] at hid
    cases hid

/-- A genuine text that claims a sender comes from that sender. -/
theorem sender (h : Genuine K d) {env : Setting D} {signal : Signal} {socketId : Option String}
    (hs : env.signal d.text = some signal) (hsender : signal.sender = some socketId) :
    socketId = some d.cause.id := by
  cases h with
  | @newPeer cause x hx =>
    obtain rfl := Option.some.inj ((env.signal_newPeer x).symm.trans hs)
    cases hsender
  | @peers cause h ids hids =>
    obtain rfl := Option.some.inj ((env.signal_peers ids h).symm.trans hs)
    cases hsender
  | @removePeer cause x =>
    obtain rfl := Option.some.inj ((env.signal_removePeer x).symm.trans hs)
    cases hsender
  | relayed hmem => exact Option.some.inj (hsender.symm.trans (env.sender_of_relayed hmem hs))

/-- A genuine text of a relayed event carries the id of the session that caused it. -/
theorem socketId_eq (h : Genuine K d) {eventName : String} {data : Fields D}
    (he : d.text.event = some (eventName, data))
    (hmem : eventName ∈ ["_offer", "_answer", "_ice_candidate"]) :
    Fields.get data "socketId" = .str d.cause.id := by
  cases h with
  | newPeer _ =>
    obtain ⟨rfl, _⟩ := Prod.mk.inj (Option.some.inj he)
    exact absurd hmem (by decide)
  | peers _ =>
    obtain ⟨rfl, _⟩ := Prod.mk.inj (Option.some.inj he)
    exact absurd hmem (by decide)
  | removePeer =>
    obtain ⟨rfl, _⟩ := Prod.mk.inj (Option.some.inj he)
    exact absurd hmem (by decide)
  | relayed _ =>
    obtain ⟨_, rfl⟩ := Prod.mk.inj (Option.some.inj he)
    rw [Fields.get_written]
    exact congrArg Json.written (SignallingServer.get_relayedData ..)

end Genuine

namespace World

/-- The client of `h` is honest: it joins once, the room `room`, and sends nothing but
relays. The other sessions do what they like, and sends may fail. -/
def Honest (h : Session) (room : Option String) (w : World D) (act : Act D) : Prop :=
  w.Lawful act ∧
    (∀ room', act = .joinRoom h room' → room' = room ∧ (w.client h).asked = false) ∧
    ∀ text, act = .send h text → ∃ socketId relay, text = Relay.text socketId relay

/-- Session `x` has joined the room by now. -/
def Admitted (w : World D) (r : String) (id : String) : Prop :=
  ∃ x : Session, x.id = id ∧ Joined w.served x r

/-- What every run around an honest client keeps. -/
structure Confined (h : Session) (r : String) (w : World D) : Prop where
  linked : w.Linked
  /-- The joins of `h` still to be executed are joins to `r`. -/
  aimed : ∀ event ∈ w.up h, ∀ name, event.joins = some name → name = r
  filed : ∀ name, h ∈ w.container.server.room name → name = r
  admitted : ∀ x name, x ∈ w.container.server.room name → Joined w.served x name
  known : (w.client h).service.roster.Within fun id => ∃ i, id = some i ∧ w.Admitted r i
  queued : ∀ d ∈ w.down h, Genuine (w.Admitted r) d

variable {h : Session} {r : String} {w : World D} {env : Setting D}

theorem confined_start : (start : World D).Confined h r where
  linked := linked_start
  aimed := nofun
  filed name hin := by simp [start, Container.start, SignallingServer.empty,
    SignallingServer.room] at hin
  admitted x name hin := by simp [start, Container.start, SignallingServer.empty,
    SignallingServer.room] at hin
  known := ⟨nofun, nofun⟩
  queued := nofun

/-- A submitted event keeps the client confined, if it is no join to another room. -/
theorem Confined.submit (hw : w.Confined h r) {s : Session} {event : ServerEvent D}
    (hl : (w.submit s event).Linked)
    (hj : s = h → ∀ name, event.joins = some name → name = r) :
    (w.submit s event).Confined h r := by
  refine ⟨hl, fun e he name hname => ?_, hw.filed, hw.admitted, hw.known, hw.queued⟩
  by_cases hs : h = s
  · subst hs
    rw [up_submit_self, List.mem_append, List.mem_singleton] at he
    rcases he with he | rfl
    · exact hw.aimed e he name hname
    · exact hj rfl name hname
  · rw [up_submit_of_ne w hs] at he
    exact hw.aimed e he name hname

/-- Changing a client without telling it of anybody. -/
theorem Confined.setClient (hw : w.Confined h r) (s : Session) (client : Client)
    (hk : s = h → client.service.roster.Within fun id => ∃ i, id = some i ∧ w.Admitted r i) :
    (w.setClient s client).Confined h r := by
  refine ⟨⟨hw.linked.own, hw.linked.phases⟩, hw.aimed, hw.filed, hw.admitted, ?_, hw.queued⟩
  by_cases hs : h = s
  · subst hs
    rw [client_setClient_self]
    exact hk rfl
  · rw [client_setClient_of_ne _ hs]
    exact hw.known

/-- Everybody in a room after a callback was there before it, or has just joined. -/
theorem mem_room_step (c : Container) (job : Job D) {x : Session} {name : String}
    (hx : x ∈ (c.step job).server.room name) :
    x ∈ c.server.room name ∨ job.event.session = x ∧ job.event.joins = some name := by
  rcases c.step_cases job with ⟨_, _, _, hs⟩ | ⟨session, message, name', he, hj, _, hs⟩ |
    ⟨_, _, _, hs⟩ | ⟨session, name', _, _, _, hs⟩ | ⟨hs, _⟩
  · rw [hs] at hx
    exact Or.inl hx
  · rw [hs, SignallingServer.room_registered] at hx
    split at hx
    · rename_i hname
      subst hname
      rcases List.mem_append.mp hx with hx | hx
      · exact Or.inl hx
      · rw [he]
        exact Or.inr ⟨(List.mem_singleton.mp hx).symm, hj⟩
    · exact Or.inl hx
  · rw [hs] at hx
    exact Or.inl hx
  · rw [hs, SignallingServer.room_unregistered] at hx
    split at hx
    · rename_i hname
      subst hname
      exact Or.inl (List.mem_of_mem_erase hx)
    · exact Or.inl hx
  · rw [hs] at hx
    exact Or.inl hx

/-- An admitted id stays admitted. -/
theorem Admitted.execute {id : String} (ha : w.Admitted r id) (s : Session)
    (event : ServerEvent D) (rest : List (ServerEvent D)) (fails : Session → Bool) :
    (w.execute s event rest fails).Admitted r id := by
  obtain ⟨x, hx, hj⟩ := ha
  exact ⟨x, hx, hj.append _⟩

/-- Whatever a callback sends to `h` is genuine. -/
theorem Confined.news (hw : w.Confined h r) {s : Session} {event : ServerEvent D}
    {rest : List (ServerEvent D)} (hu : w.up s = event :: rest) (fails : Session → Bool) :
    ∀ d ∈ w.news s ⟨event, fails⟩ h,
      Genuine ((w.execute s event rest fails).Admitted r) d := by
  intro d hd
  obtain ⟨hs, _⟩ := hw.linked.allowed hu fails
  have hself : event ∈ (w.execute s event rest fails).served :=
    List.mem_append_right _ (List.mem_singleton_self _)
  obtain ⟨cause, text⟩ := d
  obtain ⟨hcause, hcases⟩ := mem_news_cases hs hd
  obtain rfl : cause = s := hcause
  rcases hcases with ⟨name, hj, hmem, rfl⟩ | ⟨name, hj, rfl, rfl⟩ |
    ⟨_, _, relay, hmem, fs, rfl⟩ | ⟨name, _, _, _, rfl⟩
  · have hname := hw.filed name (SignallingServer.mem_others.mp hmem).1
    subst hname
    exact .newPeer ⟨cause, rfl, event, hself, hs, hj⟩
  · have hname := hw.aimed event (by rw [hu]; exact List.mem_cons_self ..) name hj
    subst hname
    refine .peers fun id hid => ?_
    obtain ⟨x, hx, rfl⟩ := List.mem_map.mp hid
    exact ⟨x, rfl, (hw.admitted x name (SignallingServer.mem_others.mp hx).1).append _⟩
  · exact .relayed hmem
  · exact .removePeer

/-- A callback of the server keeps the client confined, whoever has caused it. -/
theorem Confined.execute (hw : w.Confined h r) {s : Session} {event : ServerEvent D}
    {rest : List (ServerEvent D)} (hu : w.up s = event :: rest) (fails : Session → Bool) :
    (w.execute s event rest fails).Confined h r := by
  obtain ⟨hs, _⟩ := hw.linked.allowed hu fails
  refine ⟨hw.linked.execute hu fails, fun e he name hname => ?_, fun name hin => ?_,
    fun x name hin => ?_, hw.known.mono ?_, fun d hd => ?_⟩
  · by_cases hh : h = s
    · subst hh
      rw [up_execute_self] at he
      exact hw.aimed e (by rw [hu]; exact List.mem_cons_of_mem _ he) name hname
    · rw [up_execute_of_ne w event rest fails hh] at he
      exact hw.aimed e he name hname
  · rcases mem_room_step w.container _ hin with hin | ⟨hsession, hj⟩
    · exact hw.filed name hin
    · have hh : h = s := hsession.symm.trans hs
      subst hh
      exact hw.aimed event (by rw [hu]; exact List.mem_cons_self ..) name hj
  · rcases mem_room_step w.container _ hin with hin | ⟨hsession, hj⟩
    · exact (hw.admitted x name hin).append _
    · exact ⟨event, List.mem_append_right _ (List.mem_singleton_self _), hsession, hj⟩
  · rintro id ⟨i, rfl, hi⟩
    exact ⟨i, rfl, hi.execute ..⟩
  · rcases List.mem_append.mp hd with hd | hd
    · exact (hw.queued d hd).mono fun id hi => hi.execute ..
    · exact hw.news hu fails d hd

/-- A processed text leaves only admitted sessions known, and a call into the native
library on behalf of a sender only for an admitted one. -/
theorem Confined.hear (hw : w.Confined h r) {d : Delivery D}
    (hd : Genuine (w.Admitted r) d) :
    (env.hear h (w.client h).service d).roster.Within
        (fun id => ∃ i, id = some i ∧ w.Admitted r i) ∧
      ∀ e ∈ ((env.task h d.text).run (w.client h).service).out, e.isRemote = true →
        Joined w.served d.cause r := by
  cases hs : env.signal d.text with
  | none =>
    rw [Setting.hear_of_none hs, Setting.task, hs]
    exact ⟨hw.known, fun e he => (List.not_mem_nil he).elim⟩
  | some signal =>
    have hspec := PeerService.callback_spec env.native (env.videoEnable h) (env.mediaType h)
      hw.known signal (hd.named hs)
    rw [Setting.hear, Setting.task_of_signal hs]
    refine ⟨hspec.state rfl, fun e he hr => ?_⟩
    obtain ⟨socketId, hmem, hsender⟩ := (hspec _ rfl).emitted e he hr
    obtain ⟨i, hi, x, hx, hj⟩ := hw.known.keyed socketId hmem
    have hcause : some d.cause.id = some x.id := by
      rw [← hd.sender hs hsender, hi, hx]
    obtain rfl : d.cause = x := Session.ext (Option.some.inj hcause)
    exact hj

/-- A text the client processes keeps it confined. -/
theorem Confined.process (hw : w.Confined h r) {t : Session} {d : Delivery D}
    {rest : List (Delivery D)} (hd : w.down t = d :: rest) :
    (w.process env t d rest).Confined h r := by
  refine ⟨⟨hw.linked.own, hw.linked.phases⟩, hw.aimed, hw.filed, hw.admitted, ?_, fun d' hd' => ?_⟩
  · by_cases ht : h = t
    · subst ht
      rw [client_process_self]
      exact (hw.hear (hw.queued d (by rw [hd]; exact List.mem_cons_self ..))).1
    · rw [client_process_of_ne _ _ _ _ ht]
      exact hw.known
  · by_cases ht : h = t
    · subst ht
      rw [down_process_self] at hd'
      exact hw.queued d' (by rw [hd]; exact List.mem_cons_of_mem _ hd')
    · rw [down_process_of_ne _ _ _ _ ht] at hd'
      exact hw.queued d' hd'

/-- Every act around an honest client keeps it confined. -/
theorem Confined.step {room : Option String} (hw : w.Confined h (room.getD "__default"))
    (act : Act D) (hok : w.Honest h room act) :
    (w.step env act).Confined h (room.getD "__default") := by
  obtain ⟨hlaw, hjoin, hsend⟩ := hok
  have hlinked := hw.linked.step env act hlaw
  rcases w.step_cases env act with ⟨s, event, hstep, _, hact⟩ | ⟨s, room', rfl, hstep⟩ |
    ⟨s, fails, event, rest, rfl, hu, hstep⟩ | ⟨t, d, rest, rfl, hd, hstep⟩ | ⟨t, rfl, hstep⟩ | hstep
  · rw [hstep] at hlinked ⊢
    refine hw.submit hlinked fun hs name hname => ?_
    subst hs
    rcases hact with ⟨userId, rfl, rfl⟩ | ⟨text, rfl, rfl⟩ | ⟨rfl, rfl⟩
    · cases hname
    · obtain ⟨socketId, relay, rfl⟩ := hsend text rfl
      rw [ServerEvent.joins, SignallingServer.joinTarget_relay] at hname
      cases hname
    · cases hname
  · rw [hstep] at hlinked ⊢
    have hsub := hw.submit ⟨hlinked.own, hlinked.phases⟩ fun hs name hname => by
      subst hs
      rw [ServerEvent.joins, SignallingServer.joinTarget_joinRoom, (hjoin room' rfl).1] at hname
      exact (Option.some.inj hname).symm
    refine hsub.setClient s _ fun hs => ?_
    subst hs
    exact ⟨hw.known.listed, hw.known.keyed⟩
  · rw [hstep]
    exact hw.execute hu fails
  · rw [hstep]
    exact hw.process hd
  · rw [hstep]
    refine hw.setClient t _ fun hs => ?_
    subst hs
    have hexit := PeerService.exitRoom_spec (E := fun s =>
      s.roster = (w.client t).service.roster.emptied) (v := (w.client t).service.roster)
    rw [Client.exitRoom, hexit.state rfl]
    exact hw.known.emptied
  · rwa [hstep]

/-- Only a join or a close makes the server speak about members. -/
theorem membership_of_mem_out {c : Container} {job : Job D} {sent : Sent D}
    (hsent : sent ∈ (c.outcome job).out) {eventName : String} {data : Fields D}
    (he : sent.text.event = some (eventName, data))
    (hmem : eventName ∈ ["_peers", "_new_peer", "_remove_peer"]) :
    job.event.joins.isSome ∨ job.event = .onClose job.event.session := by
  rcases Container.mem_out_cases hsent with ⟨session, message, name, hevent, hj, _⟩ |
    ⟨session, message, _, _, relay, hrelay, fs, dst, _, rfl⟩ | ⟨session, name, hevent, _⟩
  · rw [hevent, ServerEvent.joins, hj]
    exact Or.inl rfl
  · obtain ⟨rfl, _⟩ := Prod.mk.inj (Option.some.inj he)
    simp only [SignallingServer.relays, List.mem_cons, List.not_mem_nil, or_false] at hrelay
    rcases hrelay with rfl | rfl | rfl <;> exact absurd hmem (by decide)
  · rw [hevent]
    exact Or.inr rfl

/-- Around an honest client `h` of the room `room`, whatever the other sessions send: what
is relayed to `h` carries the id of the session that caused it; only joins and closes make
the server speak about members; and when `h` hands something received to its native
library, the session that sent it has joined that room. -/
theorem room_confinement (env : Setting D) (h : Session) (room : Option String) {w : World D}
    (hw : Reachable (World.step env) (Honest h room) start w) :
    (∀ d ∈ w.down h, ∀ eventName data, d.text.event = some (eventName, data) →
        eventName ∈ ["_offer", "_answer", "_ice_candidate"] →
        Fields.get data "socketId" = .str d.cause.id) ∧
      (∀ s event rest fails, w.up s = event :: rest →
        ∀ sent ∈ (w.container.outcome ⟨event, fails⟩).out, ∀ eventName data,
          sent.text.event = some (eventName, data) →
          eventName ∈ ["_peers", "_new_peer", "_remove_peer"] →
          event.joins.isSome ∨ event = .onClose s) ∧
      ∀ d rest, w.down h = d :: rest →
        ∀ e ∈ ((env.task h d.text).run (w.client h).service).out, e.isRemote = true →
          Joined w.served d.cause (room.getD "__default") := by
  have hc : w.Confined h (room.getD "__default") :=
    hw.invariant confined_start fun w act h hok => h.step act hok
  refine ⟨fun d hd eventName data he hmem => (hc.queued d hd).socketId_eq he hmem, ?_, ?_⟩
  · intro s event rest fails hu sent hsent eventName data he hmem
    obtain ⟨hs, _⟩ := hc.linked.allowed hu fails
    rw [← hs]
    exact membership_of_mem_out hsent he hmem
  · intro d rest hd
    exact (hc.hear (hc.queued d (by rw [hd]; exact List.mem_cons_self ..))).2

/-- Clients without video, on a native library that takes everything. -/
def audioSetting : Setting IntDouble :=
  ⟨fun _ => .error .jsonSyntax, .lenient, fun _ => false, fun _ => TYPE_AUDIO⟩

/-- `b` enters the room of `a` and sends it an offer, which `a` still has to process. -/
def offerRun : List (Act IntDouble) :=
  pairRun ++ [.deliver ⟨"a"⟩, .send ⟨"b"⟩ (WsService.sendOffer (some "a") (some "v=0")),
    .serve ⟨"b"⟩ fun _ => false]

/-- In the run the client is honest. -/
theorem offerRun_honest : Along (World.step audioSetting) (Honest ⟨"a"⟩ (some "r")) start
    offerRun := by
  refine ⟨⟨rfl, nofun, nofun⟩, ⟨rfl, fun _ he => ?_, nofun⟩, ⟨trivial, nofun, nofun⟩,
    ⟨trivial, nofun, nofun⟩, ⟨trivial, nofun, nofun⟩, ⟨rfl, nofun, nofun⟩,
    ⟨rfl, fun _ he => ?_, nofun⟩, ⟨trivial, nofun, nofun⟩, ⟨trivial, nofun, nofun⟩,
    ⟨trivial, nofun, nofun⟩, ⟨rfl, nofun, fun _ he => ?_⟩, ⟨trivial, nofun, nofun⟩, trivial⟩
  · cases he
    exact ⟨rfl, rfl⟩
  · exact absurd he (by simp)
  · exact absurd he (by simp)

/-- The offer is handed to the native library of `a`, and `b` has joined the room. -/
theorem offerRun_confined :
    ∃ d rest, (offerRun.foldl (World.step audioSetting) start).down ⟨"a"⟩ = d :: rest ∧
      d.cause = ⟨"b"⟩ ∧
      Joined (offerRun.foldl (World.step audioSetting) start).served d.cause "r" := by
  have hw := Along.reachable .init offerRun_honest
  refine ⟨_, _, rfl, rfl, ?_⟩
  exact (room_confinement audioSetting ⟨"a"⟩ (some "r") hw).2.2 _ _ rfl
    (.setRemoteDescription ⟨3, some "b"⟩ .OFFER (some "v=0")) (List.mem_singleton_self _) rfl

end World

end WebrtcCaller
