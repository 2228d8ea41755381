import WebrtcCaller.System.Initiation

/-!
# Signalling never overtakes peer set-up

A relay reaches `h` only if its sender had `h` among its peers, so the two have
joined one room. When the server executes the relay both are still in that room,
and the notice that introduces the sender to `h` is already queued for `h`, ahead
of the relay. The invariant says so for every text of a queue, seen from the
service that will process it.
-/

namespace WebrtcCaller

variable {D : Type}

/-- The text is an offer, an answer or a candidate. -/
def Text.IsRelay (text : Text D) : Prop :=
  ∃ eventName ∈ ["_offer", "_answer", "_ice_candidate"], ∃ data,
    text.event = some (eventName, data)

/-- If the text is a relay, the service has a peer for the session that sent it. -/
def Expected (service : PeerService) (d : Delivery D) : Prop :=
  d.text.IsRelay → some d.cause.id ∈ service.connectionPeerDic

variable [JavaDouble D]

/-- The server's own notices are no relays. -/
theorem Text.not_isRelay_tree {eventName : String} (data : Fields D)
    (hne : eventName ∉ ["_offer", "_answer", "_ice_candidate"]) :
    ¬(Text.ofJson (SignallingData.tree ⟨some eventName, some data⟩)).IsRelay := by
  rintro ⟨eventName', hmem, data', he⟩
  obtain ⟨rfl, _⟩ := Prod.mk.inj (Option.some.inj ((Text.event_tree _ _).symm.trans he))
  exact hne hmem

/-- A genuine relay ends in a callback about the session that sent it. -/
theorem Genuine.sender_of_isRelay {K : String → Prop} {d : Delivery D} (h : Genuine K d)
    (hr : d.text.IsRelay) {env : Setting D} {signal : Signal}
    (hs : env.signal d.text = some signal) : signal.sender = some (some d.cause.id) := by
  cases h with
  | newPeer _ => exact absurd hr (Text.not_isRelay_tree _ (by decide))
  | peers _ => exact absurd hr (Text.not_isRelay_tree _ (by decide))
  | removePeer => exact absurd hr (Text.not_isRelay_tree _ (by decide))
  | relayed hmem => exact env.sender_of_relayed hmem hs

/-- A genuine notice of a newcomer ends in `onRemoteJoinToRoom`. -/
theorem Genuine.signal_of_newPeer {K : String → Prop} {d : Delivery D} (h : Genuine K d)
    {data : Fields D} (he : d.text.event = some ("_new_peer", data)) (env : Setting D) :
    ∃ socketId, env.signal d.text = some (.onRemoteJoinToRoom socketId) := by
  cases h with
  | @newPeer cause x _ => exact ⟨some x.id, env.signal_newPeer x⟩
  | peers _ =>
    have hname : "_peers" = "_new_peer" := congrArg Prod.fst (Option.some.inj he)
    exact absurd hname (by decide)
  | removePeer =>
    have hname : "_remove_peer" = "_new_peer" := congrArg Prod.fst (Option.some.inj he)
    exact absurd hname (by decide)
  | @relayed cause event data hmem =>
    have hname : event.1 = "_new_peer" := congrArg Prod.fst (Option.some.inj he)
    simp only [SignallingServer.relays, List.mem_cons, List.not_mem_nil, or_false] at hmem
    rcases hmem with rfl | rfl | rfl <;> exact absurd hname (by decide)

/-- A client whose next text introduces a newcomer has entered. -/
theorem Client.entered_of_remoteJoin {env : Setting D} {served : List (ServerEvent D)}
    {b : Session} {client : Client} {d : Delivery D} {queue : List (Delivery D)}
    (h : client.Aside env (d :: queue) ∨ client.Answered env served b (d :: queue))
    {socketId : Option String} (hs : env.signal d.text = some (.onRemoteJoinToRoom socketId)) :
    ∃ ids, client.Entered env served b ids (d :: queue) := by
  rcases h with h | h | h
  · cases h.queued d (List.mem_cons_self ..) _ hs
  · obtain ⟨pre, cause, ids, post, hq, hpre, _⟩ := h.queued
    cases pre with
    | nil =>
      obtain ⟨rfl, _⟩ := List.cons.inj hq
      cases (env.signal_peers ids b).symm.trans hs
    | cons d' pre =>
      obtain ⟨rfl, _⟩ := List.cons.inj hq
      cases hpre d (List.mem_cons_self ..) _ hs
  · exact h

/-- Relays from a session with a peer are expected, one after the other. -/
theorem along_expected {env : Setting D} {h s : Session} {ds : List (Delivery D)}
    (hrelays : env.OnlyRelays ds) (hcause : ∀ d ∈ ds, d.cause = s) {service : PeerService}
    (hs : some s.id ∈ service.connectionPeerDic) : Along (env.hear h) Expected service ds := by
  induction ds generalizing service with
  | nil => trivial
  | cons d ds ih =>
    have hmem := List.mem_cons_self (a := d) (l := ds)
    have hr : (env.hear h service d).roster = service.roster :=
      Setting.roster_hear (hrelays d hmem)
    refine ⟨fun _ => ?_, ih (fun d' hd' => hrelays d' (List.mem_cons_of_mem _ hd'))
      (fun d' hd' => hcause d' (List.mem_cons_of_mem _ hd')) ?_⟩
    · rw [hcause d hmem]
      exact hs
    · rw [show (env.hear h service d).connectionPeerDic = service.connectionPeerDic from
        congrArg Roster.connectionPeerDic hr]
      exact hs

/-- The session with this id and `x` have joined one room. -/
def Met (served : List (ServerEvent D)) (x : Session) (id : String) : Prop :=
  ∃ s : Session, s.id = id ∧ s ≠ x ∧ ∃ r, Joined served s r ∧ Joined served x r

/-- Whoever has been met has been met for good. -/
theorem Met.append {served : List (ServerEvent D)} {x : Session} {id : String}
    (h : Met served x id) (events : List (ServerEvent D)) : Met (served ++ events) x id := by
  obtain ⟨s, hs, hne, r, hr, hr'⟩ := h
  exact ⟨s, hs, hne, r, hr.append events, hr'.append events⟩

namespace World

/-- Cooperative, with relays addressed to peers only. -/
def Addressed (w : World D) (act : Act D) : Prop :=
  w.Cooperative act ∧ ∀ s text, act = .send s text →
    ∃ socketId ∈ (w.client s).service.connectionPeerDic, ∃ relay,
      text = Relay.text socketId relay

variable (env : Setting D)

/-- Whom the clients know, and what is queued for them. -/
structure Acquainted (w : World D) : Prop where
  known : ∀ x, (w.client x).service.roster.Within fun id => ∃ i, id = some i ∧ Met w.served x i
  queued : ∀ x, ∀ d ∈ w.down x, Genuine (Met w.served x) d
  addressed : ∀ x, ∀ event ∈ w.up x, ∀ id, event.addressee = some id → Met w.served x id
  /-- Nothing is queued for a session that is still to join. -/
  silent : ∀ h, w.container.server.roomList.lookup h.id = none → w.container.phase h ≠ .closed →
    w.down h = []
  expected : ∀ h, (w.client h).exited = false →
    Along (env.hear h) Expected (w.client h).service (w.down h)

theorem acquainted_start : (start : World D).Acquainted env where
  known _ := ⟨nofun, nofun⟩
  queued _ := nofun
  addressed _ := nofun
  silent _ _ _ := rfl
  expected _ _ := trivial

variable {env} {w : World D} {s : Session} {event : ServerEvent D}
  {rest : List (ServerEvent D)} {fails : Session → Bool}

/-- What is submitted for somebody who has been met keeps all clients acquainted. -/
theorem Acquainted.submit (h : w.Acquainted env)
    (ha : ∀ id, event.addressee = some id → Met w.served s id) :
    (w.submit s event).Acquainted env := by
  refine ⟨h.known, h.queued, fun x e he id hid => ?_, h.silent, h.expected⟩
  by_cases hx : x = s
  · subst hx
    rw [up_submit_self, List.mem_append, List.mem_singleton] at he
    rcases he with he | rfl
    · exact h.addressed x e he id hid
    · exact ha id hid
  · rw [up_submit_of_ne w hx] at he
    exact h.addressed x e he id hid

/-- A client may change as long as it knows only whom it has met, and can use what is on its way. -/
theorem Acquainted.setClient (h : w.Acquainted env) (t : Session) {client : Client}
    (hk : client.service.roster.Within fun id => ∃ i, id = some i ∧ Met w.served t i)
    (he : client.exited = false → Along (env.hear t) Expected client.service (w.down t)) :
    (w.setClient t client).Acquainted env := by
  refine ⟨fun x => ?_, h.queued, h.addressed, h.silent, fun x hx => ?_⟩
  all_goals by_cases ht : x = t
  · subst ht
    rw [client_setClient_self]
    exact hk
  · rw [client_setClient_of_ne _ ht]
    exact h.known x
  · subst ht
    rw [client_setClient_self] at hx ⊢
    exact he hx
  · rw [client_setClient_of_ne _ ht] at hx ⊢
    exact h.expected x hx

/-- A client that processes a text has met whom it knows from it. -/
theorem Acquainted.process (h : w.Acquainted env) {t : Session} {d : Delivery D}
    {later : List (Delivery D)} (hd : w.down t = d :: later) :
    (w.process env t d later).Acquainted env := by
  have hgenuine := h.queued t d (by rw [hd]; exact List.mem_cons_self ..)
  refine ⟨fun x => ?_, fun x d' hd' => ?_, h.addressed, fun x hl hp => ?_, fun x hx => ?_⟩
  all_goals by_cases hxt : x = t
  · subst hxt
    rw [client_process_self]
    cases hs : env.signal d.text with
    | none =>
      rw [Client.process, Setting.hear_of_none hs]
      exact h.known x
    | some signal =>
      have hspec := PeerService.callback_spec env.native (env.videoEnable x) (env.mediaType x)
        (h.known x) signal (hgenuine.named hs)
      rw [Client.process, Setting.hear_of_some hs]
      exact hspec.state rfl
  · rw [client_process_of_ne _ _ _ _ hxt]
    exact h.known x
  · subst hxt
    rw [down_process_self] at hd'
    exact h.queued x d' (by rw [hd]; exact List.mem_cons_of_mem _ hd')
  · rw [down_process_of_ne _ _ _ _ hxt] at hd'
    exact h.queued x d' hd'
  · subst hxt
    cases hd.symm.trans (h.silent x hl hp)
  · rw [down_process_of_ne _ _ _ _ hxt]
    exact h.silent x hl hp
  · subst hxt
    rw [client_process_self] at hx ⊢
    rw [down_process_self]
    have halong := h.expected x hx
    rw [hd] at halong
    exact halong.2
  · rw [client_process_of_ne _ _ _ _ hxt] at hx ⊢
    rw [down_process_of_ne _ _ _ _ hxt]
    exact h.expected x hx

/-- Two open sessions that have joined one room are in it. -/
theorem Staged.of_met (h : w.Staged env) (hsync : w.Synced env) {x t : Session}
    (hm : Met w.served x t.id) (hx : w.container.phase x ≠ .closed)
    (ht : w.container.phase t ≠ .closed) :
    ∃ r, w.container.server.roomList.lookup t.id = some r ∧
      x ∈ w.container.server.others r t := by
  obtain ⟨t', hid, hne, r, hjt, hjx⟩ := hm
  obtain rfl : t' = t := Session.ext hid
  have hlt := (h.joined t' r hjt).resolve_right ht
  have hlx := (h.joined x r hjx).resolve_right hx
  exact ⟨r, hlt, SignallingServer.mem_others.mpr
    ⟨(hsync.agree.filed_iff x r).mpr hlx, Ne.symm hne⟩⟩

/-- What a relay finds at the server: its sender is among the others of its addressee. -/
theorem Acquainted.of_addressee (h : w.Acquainted env) (hstaged : w.Staged env)
    (hsync : w.Synced env) (hu : w.up s = event :: rest) {t : Session}
    (ha : event.addressee = some t.id) (ht : w.container.phase t ≠ .closed) :
    ∃ r, w.container.server.roomList.lookup t.id = some r ∧
      s ∈ w.container.server.others r t := by
  obtain ⟨hs, hallowed⟩ := hsync.linked.allowed hu fun _ => false
  have hopen : w.container.phase s ≠ .closed := by
    have hphase : w.container.phase event.session = event.before := hallowed
    rw [← hs, hphase]
    cases event <;> nofun
  refine hstaged.of_met hsync (h.addressed s event ?_ t.id ha) hopen ht
  rw [hu]
  exact List.mem_cons_self ..

/-- Everything a callback sends is genuine. -/
theorem Acquainted.genuine_news (hstaged : w.Staged env) (hs : event.session = s)
    (t : Session) : ∀ d ∈ w.news s ⟨event, fails⟩ t, Genuine (Met (w.served ++ [event]) t) d := by
  intro d hd
  obtain ⟨cause, text⟩ := d
  obtain ⟨hcause, hcases⟩ := mem_news_cases hs hd
  obtain rfl : cause = s := hcause
  have hjoined {name : String} (hj : event.joins = some name) :
      Joined (w.served ++ [event]) cause name :=
    ⟨event, List.mem_append_right _ (List.mem_singleton_self _), hs, hj⟩
  rcases hcases with ⟨name, hj, hmem, rfl⟩ | ⟨name, hj, rfl, rfl⟩ |
    ⟨_, _, relay, hmem, fs, rfl⟩ | ⟨name, _, _, _, rfl⟩
  · obtain ⟨hroom, hne⟩ := SignallingServer.mem_others.mp hmem
    exact .newPeer ⟨cause, rfl, Ne.symm hne, name, hjoined hj,
      (hstaged.admitted t name hroom).append _⟩
  · refine .peers fun id hid => ?_
    obtain ⟨x, hx, rfl⟩ := List.mem_map.mp hid
    obtain ⟨hroom, hne⟩ := SignallingServer.mem_others.mp hx
    exact ⟨x, rfl, hne, name, (hstaged.admitted x name hroom).append _, hjoined hj⟩
  · exact .relayed hmem
  · exact .removePeer

/-- A relay is queued behind the notice that introduces its sender. -/
theorem Acquainted.expected_news (h : w.Acquainted env) (hstaged : w.Staged env)
    (hsync : w.Synced env) (hu : w.up s = event :: rest) {t : Session}
    (hx : (w.client t).exited = false) :
    Along (env.hear t) Expected (w.drained env t) (w.news s ⟨event, fails⟩ t) := by
  obtain ⟨hs, _⟩ := hsync.linked.allowed hu fails
  by_cases hrelay : ∃ d ∈ w.news s ⟨event, fails⟩ t, d.text.IsRelay
  · obtain ⟨d, hd, hr⟩ := hrelay
    rcases (mem_news_cases hs hd).2 with ⟨name, _, _, htext⟩ | ⟨name, _, _, htext⟩ |
      ⟨hnone, ⟨hsock, ha⟩, _⟩ | ⟨name, _, _, _, htext⟩
    · rw [htext] at hr
      exact absurd hr (Text.not_isRelay_tree _ (by decide))
    · rw [htext] at hr
      exact absurd hr (Text.not_isRelay_tree _ (by decide))
    · have hopen : w.container.phase t ≠ .closed := by
        rw [hsync.steady.only_opened t hsock]
        nofun
      obtain ⟨r, hl, hmem⟩ := h.of_addressee hstaged hsync hu ha hopen
      obtain ⟨v, hat, hv⟩ := hsync.inside t r hl hx
      have hdic : some s.id ∈ (w.drained env t).connectionPeerDic := by
        rw [show (w.drained env t).connectionPeerDic = v.connectionPeerDic from
          congrArg Roster.connectionPeerDic hat.roster_eq, hv.mem_iff]
        exact List.mem_map_of_mem hmem
      refine along_expected (fun d' hd' => ?_) (fun d' hd' => (mem_news_cases hs hd').1) hdic
      cases event with
      | onOpen session userId => cases ha
      | onClose session => cases ha
      | onMessage session message =>
        obtain rfl : session = s := hs
        exact onlyRelays_of_message hnone t d' hd'
    · rw [htext] at hr
      exact absurd hr (Text.not_isRelay_tree _ (by decide))
  · exact along_of_forall fun d hd _ hr => absurd ⟨d, hd, hr⟩ hrelay

/-- Every callback of the server keeps the clients acquainted. -/
theorem Acquainted.execute (h : w.Acquainted env) (hstaged : w.Staged env)
    (hsync : w.Synced env) (hu : w.up s = event :: rest) (hf : ∀ t, fails t = false) :
    (w.execute s event rest fails).Acquainted env := by
  obtain ⟨hs, _⟩ := hsync.linked.allowed hu fails
  refine ⟨fun x => (h.known x).mono ?_, fun x d hd => ?_, fun x e he id hid => ?_,
    fun t hl hp => ?_, fun t hx => ?_⟩
  · rintro id ⟨i, rfl, hi⟩
    exact ⟨i, rfl, hi.append _⟩
  · rcases List.mem_append.mp hd with hd | hd
    · exact (h.queued x d hd).mono fun id hi => hi.append _
    · exact Acquainted.genuine_news hstaged hs x d hd
  · by_cases hxs : x = s
    · subst hxs
      rw [up_execute_self] at he
      exact (h.addressed x e (by rw [hu]; exact List.mem_cons_of_mem _ he) id hid).append _
    · rw [up_execute_of_ne w event rest fails hxs] at he
      exact (h.addressed x e he id hid).append _
  · obtain ⟨ht, hl, hp⟩ := hsync.unfiled_before hu hf hl hp
    have hout (name : String) : t ∉ w.container.server.others name s := fun hm => by
      have := (hsync.agree.filed_iff t name).mp (SignallingServer.mem_others.mp hm).1
      cases hl.symm.trans this
    rw [down_execute, h.silent t hl hp, List.nil_append, List.eq_nil_iff_forall_not_mem]
    intro d hd
    rcases (mem_news_cases hs hd).2 with ⟨name, _, hm, _⟩ | ⟨name, hj, he, _⟩ |
      ⟨_, ⟨_, ha⟩, _⟩ | ⟨name, _, _, hm, _⟩
    · exact hout name hm
    · cases hj.symm.trans (ht he)
    · obtain ⟨r, hr, _⟩ := h.of_addressee hstaged hsync hu ha hp
      cases hl.symm.trans hr
    · exact hout name hm
  · rw [down_execute, client_execute, along_append]
    exact ⟨h.expected t hx, h.expected_news hstaged hsync hu hx⟩

/-- Every act to an addressee that has been met keeps the clients acquainted. -/
theorem Acquainted.step (h : w.Acquainted env) (hstaged : w.Staged env) (hsync : w.Synced env)
    (act : Act D) (hok : w.Addressed act) : (w.step env act).Acquainted env := by
  obtain ⟨⟨hlaw, hjoin, _, hserve⟩, hsend⟩ := hok
  rcases w.step_cases env act with ⟨s, event, hw, _, hact⟩ | ⟨s, room, rfl, hw⟩ |
    ⟨s, fails, event, rest, rfl, hu, hw⟩ | ⟨t, d, rest, rfl, hd, hw⟩ | ⟨t, rfl, hw⟩ | hw
  · rw [hw]
    refine h.submit fun id hid => ?_
    rcases hact with ⟨userId, rfl, rfl⟩ | ⟨text, rfl, rfl⟩ | ⟨rfl, rfl⟩
    · cases hid
    · obtain ⟨socketId, hmem, relay, rfl⟩ := hsend s text rfl
      obtain ⟨i, hi, hmet⟩ := (h.known s).keyed socketId hmem
      have hid : socketId = some id :=
        (SignallingServer.addressee_relay socketId relay).symm.trans hid
      obtain rfl := Option.some.inj (hi.symm.trans hid)
      exact hmet
    · cases hid
  · rw [hw]
    have hsub : (w.submit s (.onMessage s (WsService.joinRoom room))).Acquainted env := by
      refine h.submit fun id hid => ?_
      rw [ServerEvent.addressee, SignallingServer.addressee_joinRoom] at hid
      cases hid
    obtain ⟨_, hnone⟩ := hsync.oneJoin.of_not_asked (hjoin s room rfl)
    have hopen := hsync.linked.phase_ne_closed hlaw
    refine hsub.setClient s ⟨(h.known s).listed, (h.known s).keyed⟩ fun _ => ?_
    rw [down_submit, h.silent s hnone hopen]
    trivial
  · rw [hw]
    exact h.execute hstaged hsync hu (hserve s fails rfl)
  · rw [hw]
    exact h.process hd
  · rw [hw]
    refine h.setClient t ?_ nofun
    have hexit := PeerService.exitRoom_spec (E := fun s =>
      s.roster = (w.client t).service.roster.emptied) (v := (w.client t).service.roster)
    rw [Client.exitRoom, hexit.state rfl]
    exact (h.known t).emptied
  · rwa [hw]

/-- In every reachable state the clients are staged and acquainted. -/
theorem acquainted_of_reachable (hw : Reachable (World.step env) Addressed start w) :
    w.Staged env ∧ w.Acquainted env := by
  have hall := hw.invariant (I := fun w => w.Synced env ∧ w.Staged env ∧ w.Acquainted env)
    ⟨synced_start env, staged_start env, acquainted_start env⟩ fun _ act h hok =>
      ⟨h.1.step act hok.1, h.2.1.step h.1 act hok.1, h.2.2.step h.2.1 h.1 act hok⟩
  exact hall.2

/-- In every run in which relays are addressed to peers only, what a client that has not
left the call processes next is expected: the sender of an offer, an answer or a candidate
has its peer, and a newcomer is heard of after the own `onJoinToRoom`, with the factory and
the stream in place. -/
theorem setup_precedes_signalling (env : Setting D) {w : World D}
    (hw : Reachable (World.step env) Addressed start w) {h : Session}
    (hx : (w.client h).exited = false) {d : Delivery D} {later : List (Delivery D)}
    (hd : w.down h = d :: later) :
    (d.text.IsRelay → some d.cause.id ∈ (w.client h).service.connectionPeerDic ∧
        ∀ signal, env.signal d.text = some signal → signal.sender = some (some d.cause.id)) ∧
      ∀ data, d.text.event = some ("_new_peer", data) →
        (∃ ids, Signal.onJoinToRoom (some ids) (some h.id) ∈ (w.client h).ran) ∧
          (w.client h).service.peerFactory.isSome ∧ (w.client h).service.localStream.isSome := by
  obtain ⟨hstaged, hacq⟩ := acquainted_of_reachable hw
  have hgenuine := hacq.queued h d (by rw [hd]; exact List.mem_cons_self ..)
  have hplaced := hstaged.placed h
  have hexpected := hacq.expected h hx
  rw [hd] at hplaced hexpected
  refine ⟨fun hr => ⟨hexpected.1 hr, fun signal => hgenuine.sender_of_isRelay hr⟩,
    fun data he => ?_⟩
  obtain ⟨socketId, hs⟩ := hgenuine.signal_of_newPeer he env
  obtain ⟨ids, hentered⟩ := Client.entered_of_remoteJoin hplaced hs
  obtain ⟨_, hat⟩ := hentered.held hx
  refine ⟨⟨ids.map some, ?_⟩, hat.factory_isSome rfl, hat.stream_isSome rfl⟩
  have hmem := List.mem_singleton_self (Signal.onJoinToRoom (some (ids.map some)) (some h.id))
  rw [← hentered.ran] at hmem
  exact (List.mem_filter.mp hmem).1

/-- `b` enters the room of `a`, hears so and sends an offer, which the server relays; then
`a` hears of `b`. -/
def relayRun : List (Act IntDouble) :=
  enteredRun ++ [.send ⟨"b"⟩ (WsService.sendOffer (some "a") (some "v=0")),
    .serve ⟨"b"⟩ fun _ => false, .deliver ⟨"a"⟩]

/-- In the run every relay is for somebody who has been met. -/
theorem relayRun_addressed : Along (World.step demoSetting) Addressed start relayRun := by
  refine along_append.mpr ⟨enteredRun_cooperative.imp fun act hact _ hok => ⟨hok, ?_⟩,
    ⟨⟨rfl, nofun, fun s text he => ?_, nofun⟩, fun s text he => ?_⟩,
    ⟨⟨trivial, nofun, nofun, fun _ _ he _ => ?_⟩, nofun⟩,
    ⟨⟨trivial, nofun, nofun, nofun⟩, nofun⟩, trivial⟩
  · rintro s text rfl
    simp [enteredRun, pairRun] at hact
  · cases he
    exact ⟨some "a", .offer (some "v=0"), rfl⟩
  · cases he
    exact ⟨some "a", by decide, .offer (some "v=0"), rfl⟩
  · cases he
    rfl

/-- The offer of `b` is next for `a`, and finds its peer. -/
theorem relayRun_expected : Reachable (World.step demoSetting) Addressed start
      (relayRun.foldl (World.step demoSetting) start) ∧
    ∃ d later, (relayRun.foldl (World.step demoSetting) start).down ⟨"a"⟩ = d :: later ∧
      d.cause = ⟨"b"⟩ ∧ some d.cause.id ∈
        ((relayRun.foldl (World.step demoSetting) start).client
          ⟨"a"⟩).service.connectionPeerDic := by
  have hw := Along.reachable .init relayRun_addressed
  refine ⟨hw, _, _, rfl, rfl, ?_⟩
  exact ((setup_precedes_signalling demoSetting hw rfl rfl).1
    ⟨"_offer", by decide, _, rfl⟩).1

end World

end WebrtcCaller
