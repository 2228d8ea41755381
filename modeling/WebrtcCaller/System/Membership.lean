import WebrtcCaller.Client.Manager
import WebrtcCaller.System.News

/-!
# Membership agreement

Server and clients keep the members of a room in three places: the room list,
the id list of every client and its peer map. The invariant relates the room
list to the service a client will have once its queue is processed, so a text
that is appended to the queue is one more step of that service, and a text that
is processed changes nothing.
-/

namespace WebrtcCaller

variable {D : Type} [JavaDouble D]

namespace World

/-- The discipline of well-behaved clients: one join each, relays as the clients write
them, and sends that succeed. -/
def Cooperative (w : World D) (act : Act D) : Prop :=
  w.Lawful act ∧
    (∀ s room, act = .joinRoom s room → (w.client s).asked = false) ∧
    (∀ s text, act = .send s text → ∃ socketId relay, text = Relay.text socketId relay) ∧
    ∀ s fails, act = .serve s fails → ∀ t, fails t = false

/-- The joins of `s` that are still to be executed. -/
def pendingJoins (w : World D) (s : Session) : Nat := (w.up s).countP (·.joins.isSome)

/-- A session that has asked once has one join, executed or still to be executed. -/
def OneJoin (w : World D) : Prop :=
  ∀ s, w.pendingJoins s + (w.container.server.roomList.lookup s.id).toList.length ≤
    if (w.client s).asked then 1 else 0

section Invariant

variable (env : Setting D)

/-- What `h` shows once its queue is processed: the others in its room. -/
def Inside (w : World D) (h : Session) (r : String) : Prop :=
  (w.drained env h).Ready ((w.container.server.others r h).map fun s => some s.id) (some h.id)

/-- What every cooperative run keeps. -/
structure Synced (w : World D) : Prop where
  linked : w.Linked
  steady : w.container.Steady
  agree : w.container.server.Agree
  oneJoin : w.OneJoin
  outside : ∀ h, w.container.server.roomList.lookup h.id = none → w.container.phase h ≠ .closed →
    (w.client h).Aside env (w.down h)
  inside : ∀ h r, w.container.server.roomList.lookup h.id = some r →
    (w.client h).exited = false → w.Inside env h r

theorem synced_start : (start : World D).Synced env where
  linked := linked_start
  steady := Container.steady_start
  agree := .empty
  oneJoin s := by simp [pendingJoins, start, Container.start, SignallingServer.empty, Client.init]
  outside h _ _ := .init
  inside h r hl := by simp [start, Container.start, SignallingServer.empty] at hl

variable {env} {w : World D}

/-- A session that has not asked has no join anywhere. -/
theorem OneJoin.of_not_asked (h : w.OneJoin) {s : Session} (ha : (w.client s).asked = false) :
    w.pendingJoins s = 0 ∧ w.container.server.roomList.lookup s.id = none := by
  have hs := h s
  rw [ha] at hs
  cases hl : w.container.server.roomList.lookup s.id with
  | none =>
    rw [hl] at hs
    exact ⟨by simpa using hs, rfl⟩
  | some r => simp [hl] at hs

/-- A join still to be executed is the first one. -/
theorem OneJoin.of_pending (h : w.OneJoin) {s : Session} (hp : 0 < w.pendingJoins s) :
    (w.client s).asked = true ∧ w.container.server.roomList.lookup s.id = none := by
  have hs := h s
  cases ha : (w.client s).asked with
  | false =>
    rw [ha] at hs
    simp only [Bool.false_eq_true, if_false] at hs
    omega
  | true =>
    cases hl : w.container.server.roomList.lookup s.id with
    | none => exact ⟨rfl, rfl⟩
    | some r =>
      simp only [ha, hl, if_true, Option.toList_some, List.length_singleton] at hs
      omega

/-- Only an open session is filed under a room. -/
theorem Synced.opened_of_filed (h : w.Synced env) {t : Session}
    (hl : (w.container.server.roomList.lookup t.id).isSome) : w.container.phase t = .opened := by
  obtain ⟨r, hr⟩ := Option.isSome_iff_exists.mp hl
  exact h.steady.only_opened t (h.agree.connected t r ((h.agree.filed_iff t r).mpr hr))

/-- A callback that is no join changes nothing that the invariant speaks about. -/
theorem Synced.submit (h : w.Synced env) {s : Session} {event : ServerEvent D}
    (hl : (w.submit s event).Linked) (hj : event.joins = none) : (w.submit s event).Synced env where
  linked := hl
  steady := h.steady
  agree := h.agree
  oneJoin t := by
    have hpend : (w.submit s event).pendingJoins t = w.pendingJoins t := by
      by_cases ht : t = s
      · subst ht
        simp [pendingJoins, hj]
      · simp [pendingJoins, up_submit_of_ne w ht]
    rw [hpend]
    exact h.oneJoin t
  outside := h.outside
  inside t r hn hx := h.inside t r hn hx

/-- A client that asks to join for the first time stays in step. -/
theorem Synced.joinRoom (h : w.Synced env) {s : Session} {room : Option String}
    (hl : (w.submit s (.onMessage s (WsService.joinRoom room))).Linked)
    (ha : (w.client s).asked = false) :
    ((w.submit s (.onMessage s (WsService.joinRoom room))).setClient s
      (w.client s).joinRoom).Synced env := by
  obtain ⟨hpend, hnone⟩ := h.oneJoin.of_not_asked ha
  refine ⟨⟨hl.own, hl.phases⟩, h.steady, h.agree, fun t => ?_, fun t hn hp => ?_,
    fun t r hr hx => ?_⟩
  · by_cases ht : t = s
    · subst ht
      have hlen : (w.container.server.roomList.lookup t.id).toList.length = 0 := by simp [hnone]
      have hcount : List.countP (·.joins.isSome)
          [(.onMessage t (WsService.joinRoom room) : ServerEvent D)] ≤ 1 := List.countP_le_length
      simp only [pendingJoins] at hpend
      simp only [pendingJoins, up_setClient, up_submit_self, List.countP_append,
        client_setClient_self, Client.asked_joinRoom, if_true, hpend, container_setClient,
        container_submit]
      omega
    · have hold := h.oneJoin t
      simpa only [pendingJoins, up_setClient, up_submit_of_ne w ht, client_setClient_of_ne _ ht,
        container_setClient, container_submit, client_submit] using hold
  · have hout := h.outside t hn hp
    by_cases ht : t = s
    · subst ht
      rw [client_setClient_self]
      exact hout.joinRoom
    · rw [client_setClient_of_ne _ ht]
      exact hout
  · have ht : t ≠ s := by
      rintro rfl
      rw [container_setClient, container_submit, hnone] at hr
      cases hr
    rw [client_setClient_of_ne _ ht] at hx
    have hin := h.inside t r hr hx
    rw [Inside, drained, client_setClient_of_ne _ ht]
    exact hin

/-- A client that leaves forgets its peers, and nothing is asked of it any more. -/
theorem Synced.exitRoom (h : w.Synced env) (t : Session) :
    (w.setClient t (w.client t).exitRoom).Synced env := by
  refine ⟨⟨h.linked.own, h.linked.phases⟩, h.steady, h.agree, fun s => ?_, fun s hn hp => ?_,
    fun s r hr he => ?_⟩
  · have hold := h.oneJoin s
    by_cases hs : s = t
    · subst hs
      rw [client_setClient_self]
      exact hold
    · rw [client_setClient_of_ne _ hs]
      exact hold
  · have hout := h.outside s hn hp
    by_cases hs : s = t
    · subst hs
      rw [client_setClient_self]
      exact hout.exitRoom
    · rw [client_setClient_of_ne _ hs]
      exact hout
  · have hs : s ≠ t := by
      rintro rfl
      rw [client_setClient_self] at he
      cases he
    rw [client_setClient_of_ne _ hs] at he
    rw [Inside, drained, client_setClient_of_ne _ hs]
    exact h.inside s r hr he

/-- A text is processed as it was expected to be. -/
theorem Synced.process (h : w.Synced env) {t : Session} {d : Delivery D}
    {rest : List (Delivery D)} (hd : w.down t = d :: rest) :
    (w.process env t d rest).Synced env := by
  have hasked (s : Session) : ((w.process env t d rest).client s).asked = (w.client s).asked := by
    by_cases hs : s = t
    · subst hs
      rw [client_process_self]
      rfl
    · rw [client_process_of_ne _ _ _ _ hs]
  have hexited (s : Session) :
      ((w.process env t d rest).client s).exited = (w.client s).exited := by
    by_cases hs : s = t
    · subst hs
      rw [client_process_self]
      rfl
    · rw [client_process_of_ne _ _ _ _ hs]
  refine ⟨⟨h.linked.own, h.linked.phases⟩, h.steady, h.agree, fun s => ?_, fun s hn hp => ?_,
    fun s r hr hx => ?_⟩
  · rw [hasked]
    exact h.oneJoin s
  · have hout := h.outside s hn hp
    by_cases hs : s = t
    · subst hs
      rw [client_process_self, down_process_self]
      exact (hd ▸ hout).process
    · rw [client_process_of_ne _ _ _ _ hs, down_process_of_ne _ _ _ _ hs]
      exact hout
  · rw [hexited] at hx
    rw [Inside, drained_process env hd]
    exact h.inside s r hr hx

section Execute

variable {s : Session} {event : ServerEvent D} {rest : List (ServerEvent D)}
  {fails : Session → Bool}

/-- The pending joins before a callback is executed. -/
theorem pendingJoins_execute (hu : w.up s = event :: rest) (t : Session) :
    w.pendingJoins t = (w.execute s event rest fails).pendingJoins t +
      if t = s ∧ event.joins.isSome then 1 else 0 := by
  by_cases ht : t = s
  · subst ht
    simp [pendingJoins, hu, List.countP_cons]
  · simp [pendingJoins, up_execute_of_ne w event rest fails ht, ht]

/-- A join is executed for a session that asked and is filed under no room. -/
theorem Synced.fresh (h : w.Synced env) (hu : w.up s = event :: rest)
    (hj : event.joins.isSome) :
    (w.client s).asked = true ∧ w.container.server.roomList.lookup s.id = none := by
  refine h.oneJoin.of_pending ?_
  rw [@pendingJoins_execute _ _ w s event rest (fun _ => false) hu s, if_pos ⟨rfl, hj⟩]
  omega

/-- The container step behind an executed callback. -/
theorem Synced.quiet (h : w.Synced env) (hu : w.up s = event :: rest)
    (hf : ∀ t, fails t = false) :
    event.session = s ∧ w.container.Quiet ⟨event, fails⟩ ∧
      w.container.FreshJoin ⟨event, fails⟩ := by
  obtain ⟨hs, hallowed⟩ := h.linked.allowed hu fails
  refine ⟨hs, ⟨hallowed, hf⟩, fun session message name he hj => ?_⟩
  have he' : event = .onMessage session message := he
  subst he'
  have hs' : session = s := hs
  have hsome : (ServerEvent.onMessage session message).joins.isSome := by
    rw [ServerEvent.joins, hj]
    rfl
  rw [hs']
  exact (h.fresh hu hsome).2

/-- The server executes at most one join of each client. -/
theorem Synced.oneJoin_execute (h : w.Synced env) (hu : w.up s = event :: rest)
    (hf : ∀ t, fails t = false) : (w.execute s event rest fails).OneJoin := by
  obtain ⟨hs, hquiet, hfresh⟩ := h.quiet hu hf
  intro t
  have hold := h.oneJoin t
  rw [@pendingJoins_execute _ _ w s event rest fails hu t] at hold
  rw [client_execute, container_execute]
  cases event with
  | onOpen session userId =>
    have hserver :
        (w.container.step ⟨(.onOpen session userId : ServerEvent D), fails⟩).server.roomList =
          w.container.server.roomList := by
      simp [Container.step, Container.outcome, ServerEvent.task, SignallingServer.run_onOpen]
    rw [hserver]
    omega
  | onMessage session message =>
    obtain rfl : session = s := hs
    cases hj : SignallingServer.joinTarget message with
    | none =>
      rw [Container.server_of_joinTarget_none session hj]
      omega
    | some name =>
      rw [Container.server_join hf session hj, SignallingServer.lookup_roomList_registered]
      by_cases ht : t = session
      · subst ht
        have hnone := hfresh t message name rfl hj
        simp only [ServerEvent.joins, hj, Option.isSome_some, and_self, if_true, hnone] at hold ⊢
        simpa using hold
      · have hid : t.id ≠ session.id := fun he => ht (Session.ext he)
        rw [if_neg hid]
        omega
  | onClose session =>
    rw [Container.server_close h.steady.toFiled hf session]
    cases hl : w.container.server.roomList.lookup session.id with
    | none =>
      simp only
      omega
    | some name =>
      simp only [SignallingServer.lookup_roomList_unregistered]
      split
      · simp only [Option.toList_none, List.length_nil]
        omega
      · omega

/-- A member that is told of nothing, in a room nobody enters or leaves, stays in step. -/
theorem Inside.of_others_eq {h : Session} {r : String} (hin : w.Inside env h r)
    (hnews : w.news s ⟨event, fails⟩ h = [])
    (hoth : (w.container.step ⟨event, fails⟩).server.others r h = w.container.server.others r h) :
    (w.execute s event rest fails).Inside env h r := by
  rw [Inside, drained_execute, hnews, container_execute, hoth]
  exact hin

/-- The room a session is filed under changes by its own join and close only. -/
theorem Synced.lookup_execute (h : w.Synced env) (hu : w.up s = event :: rest) {t : Session}
    (ht : t = s → event.joins = none)
    (hp : (w.container.step ⟨event, fails⟩).phase t ≠ .closed) :
    (w.container.step ⟨event, fails⟩).server.roomList.lookup t.id =
      w.container.server.roomList.lookup t.id := by
  obtain ⟨hs, _⟩ := h.linked.allowed hu fails
  refine lookup_step_of_none w.container _ fun he => ⟨ht (he.trans hs), fun hafter => hp ?_⟩
  rw [he]
  exact (Container.phase_step_self w.container (⟨event, fails⟩ : Job D)).trans hafter

/-- Whoever is open and filed under no room after a callback was so before it. -/
theorem Synced.unfiled_before (h : w.Synced env) (hu : w.up s = event :: rest)
    (hf : ∀ t, fails t = false) {t : Session}
    (hl : (w.container.step ⟨event, fails⟩).server.roomList.lookup t.id = none)
    (hp : (w.container.step ⟨event, fails⟩).phase t ≠ .closed) :
    (t = s → event.joins = none) ∧ w.container.server.roomList.lookup t.id = none ∧
      w.container.phase t ≠ .closed := by
  obtain ⟨hs, hallowed⟩ := h.linked.allowed hu fails
  have ht : t = s → event.joins = none := by
    rintro rfl
    cases hj : event.joins with
    | none => rfl
    | some name => cases hl.symm.trans (lookup_step_of_join hf hs hj)
  refine ⟨ht, (h.lookup_execute hu ht hp).symm.trans hl, fun hc => hp ?_⟩
  exact Container.phase_step_closed hallowed hc

/-- An executed join: the members hear of the newcomer, the newcomer of the members. -/
theorem Synced.execute_join (h : w.Synced env) {message : Text D} {name : String}
    (hu : w.up s = .onMessage s message :: rest) (hf : ∀ t, fails t = false)
    (hj : SignallingServer.joinTarget message = some name) :
    ∀ t r, (w.container.server.registered name s).roomList.lookup t.id = some r →
      (w.client t).exited = false →
      (w.execute s (.onMessage s message) rest fails).Inside env t r := by
  have hjoins : (ServerEvent.onMessage s message).joins.isSome := by
    rw [ServerEvent.joins, hj]
    rfl
  obtain ⟨hasked, hnone⟩ := h.fresh hu hjoins
  obtain ⟨_, ⟨hallowed, _⟩, _⟩ := h.quiet hu hf
  have hphase : w.container.phase s ≠ .closed := by
    rw [show w.container.phase s = .opened from hallowed]
    intro hclosed
    cases hclosed
  have hn : (w.container.server.others name s).Nodup := (h.agree.nodup name).filter _
  have hmem (t : Session) : t ∈ w.container.server.others name s →
      w.container.server.roomList.lookup t.id = some name := fun ht =>
    (h.agree.filed_iff t name).mp (SignallingServer.mem_others.mp ht).1
  intro t r hl hx
  have hserver := Container.server_join (c := w.container) hf s hj
  rw [SignallingServer.lookup_roomList_registered] at hl
  by_cases hts : t = s
  · subst hts
    rw [if_pos rfl] at hl
    obtain rfl := Option.some.inj hl
    obtain ⟨hblank, hcontext⟩ := (h.outside t hnone hphase).foldl (b := t)
    have hto : t ∉ w.container.server.others name t := fun ht =>
      (SignallingServer.mem_others.mp ht).2 rfl
    rw [Inside, drained_execute, news_join hf hj hn, if_neg hto, if_pos rfl, List.foldl_cons,
      List.foldl_nil, Setting.hear_peers, container_execute, hserver,
      SignallingServer.others_registered_self]
    have hready := hblank.ready (env.videoEnable t) (env.mediaType t) (hcontext hasked)
      ((w.container.server.others name t).map fun s => some s.id) (some t.id)
    rw [List.map_map]
    exact hready
  · have hid : t.id ≠ s.id := fun he => hts (Session.ext he)
    rw [if_neg hid] at hl
    have hin := h.inside t r hl hx
    by_cases hr : r = name
    · subst hr
      have hto : t ∈ w.container.server.others r s :=
        SignallingServer.mem_others.mpr ⟨(h.agree.filed_iff t r).mpr hl, hts⟩
      rw [Inside, drained_execute, news_join hf hj hn, if_pos hto, List.foldl_cons,
        List.foldl_nil, Setting.hear_newPeer, container_execute, hserver,
        SignallingServer.others_registered hts, List.map_append]
      exact hin.remoteJoin _
    · have hto : t ∉ w.container.server.others name s := fun ht =>
        hr (Option.some.inj (hl.symm.trans (hmem t ht)))
      refine hin.of_others_eq ?_ ?_
      · rw [news_join hf hj hn, if_neg hto, if_neg hts]
      · rw [hserver, SignallingServer.others_registered_of_ne hr]

/-- An executed close of a member: the others lose it. -/
theorem Synced.execute_close (h : w.Synced env) {name : String} (hf : ∀ t, fails t = false)
    (hl : w.container.server.roomList.lookup s.id = some name) :
    ∀ t r, t ≠ s → w.container.server.roomList.lookup t.id = some r →
      (w.client t).exited = false → (w.execute s (.onClose s) rest fails).Inside env t r := by
  have hn : (w.container.server.others name s).Nodup := (h.agree.nodup name).filter _
  have hmem (t : Session) : t ∈ w.container.server.others name s →
      w.container.server.roomList.lookup t.id = some name := fun ht =>
    (h.agree.filed_iff t name).mp (SignallingServer.mem_others.mp ht).1
  have hserver : (w.container.step ⟨(.onClose s : ServerEvent D), fails⟩).server =
      w.container.server.unregistered name s := by
    rw [Container.server_close h.steady.toFiled hf s, hl]
  intro t r hts hlt hx
  have hin := h.inside t r hlt hx
  by_cases hr : r = name
  · subst hr
    have hto : t ∈ w.container.server.others r s :=
      SignallingServer.mem_others.mpr ⟨(h.agree.filed_iff t r).mpr hlt, hts⟩
    have hinj : Function.Injective fun x : Session => some x.id :=
      fun a b hab => Session.ext (Option.some.inj hab)
    have hnodup : ((w.container.server.others r t).map fun x => some x.id).Nodup :=
      ((h.agree.nodup r).filter _).map hinj
    rw [Inside, drained_execute, news_close hf h.steady.toFiled hl hn, if_pos hto,
      List.foldl_cons, List.foldl_nil, Setting.hear_removePeer, container_execute, hserver,
      SignallingServer.others_unregistered (h.agree.nodup r), List.map_erase hinj]
    exact hin.remoteOut hnodup _
  · have hto : t ∉ w.container.server.others name s := fun ht =>
      hr (Option.some.inj (hlt.symm.trans (hmem t ht)))
    refine hin.of_others_eq ?_ ?_
    · rw [news_close hf h.steady.toFiled hl hn, if_neg hto]
    · rw [hserver, SignallingServer.others_unregistered_of_ne hr]

/-- Every callback of the server keeps the clients in step. -/
theorem Synced.execute (h : w.Synced env) (hu : w.up s = event :: rest)
    (hf : ∀ t, fails t = false) : (w.execute s event rest fails).Synced env := by
  obtain ⟨hs, hquiet, hfresh⟩ := h.quiet hu hf
  refine ⟨h.linked.execute hu fails, h.steady.step _ hquiet,
    (Container.agree_step_iff h.steady h.agree _ hquiet).mpr hfresh, h.oneJoin_execute hu hf,
    ?_, ?_⟩
  · intro t hl hp
    obtain ⟨ht, hl, hp⟩ := h.unfiled_before hu hf hl hp
    rw [client_execute, down_execute]
    exact (h.outside t hl hp).append (onlyRelays_news h.agree hs ht hl)
  · intro t r hl hx
    rw [container_execute] at hl
    cases event with
    | onOpen session userId =>
      obtain rfl : session = s := hs
      have hl' : w.container.server.roomList.lookup t.id = some r := by
        simpa [Container.step, Container.outcome, ServerEvent.task,
          SignallingServer.run_onOpen] using hl
      refine (h.inside t r hl' hx).of_others_eq (news_open userId t) ?_
      simp [Container.step, Container.outcome, ServerEvent.task, SignallingServer.run_onOpen,
        SignallingServer.others, SignallingServer.room]
    | onMessage session message =>
      obtain rfl : session = s := hs
      cases hj : SignallingServer.joinTarget message with
      | none =>
        rw [Container.server_of_joinTarget_none session hj] at hl
        rw [Inside, drained_execute, container_execute,
          Container.server_of_joinTarget_none session hj]
        exact (onlyRelays_of_message hj t).ready_foldl (h.inside t r hl hx)
      | some name =>
        rw [Container.server_join hf session hj] at hl
        exact h.execute_join hu hf hj t r hl hx
    | onClose session =>
      obtain rfl : session = s := hs
      rw [Container.server_close h.steady.toFiled hf session] at hl
      cases hls : w.container.server.roomList.lookup session.id with
      | none =>
        rw [hls] at hl
        refine (h.inside t r hl hx).of_others_eq (news_close_of_none hls t) ?_
        rw [Container.server_close h.steady.toFiled hf session, hls]
        rfl
      | some name =>
        simp only [hls, SignallingServer.lookup_roomList_unregistered] at hl
        split at hl
        · cases hl
        · rename_i hid
          exact h.execute_close hf hls t r (fun he => hid (he ▸ rfl)) hl hx

end Execute

/-- One cooperative step keeps server and clients in step. -/
theorem Synced.step (h : w.Synced env) (act : Act D) (hok : w.Cooperative act) :
    (w.step env act).Synced env := by
  obtain ⟨hlaw, hjoin, hsend, hserve⟩ := hok
  have hlinked := h.linked.step env act hlaw
  rcases w.step_cases env act with ⟨s, event, hw, _, hact⟩ | ⟨s, room, rfl, hw⟩ |
    ⟨s, fails, event, rest, rfl, hu, hw⟩ | ⟨t, d, rest, rfl, hd, hw⟩ | ⟨t, rfl, hw⟩ | hw
  · rw [hw] at hlinked ⊢
    refine h.submit hlinked ?_
    rcases hact with ⟨userId, rfl, rfl⟩ | ⟨text, rfl, rfl⟩ | ⟨rfl, rfl⟩
    · rfl
    · obtain ⟨socketId, relay, rfl⟩ := hsend s text rfl
      exact SignallingServer.joinTarget_relay socketId relay
    · rfl
  · rw [hw] at hlinked ⊢
    exact h.joinRoom ⟨hlinked.own, hlinked.phases⟩ (hjoin s room rfl)
  · rw [hw]
    exact h.execute hu (hserve s fails rfl)
  · rw [hw]
    exact h.process hd
  · rw [hw]
    exact h.exitRoom t
  · rwa [hw]

/-- In every state of every cooperative run, a client that is in a room and has not left
the call shows, once its queue is processed, exactly the other members of that room. -/
theorem membership_agreement (env : Setting D) {w : World D}
    (hw : Reachable (World.step env) Cooperative start w) {h : Session} {r : String}
    (hin : h ∈ w.container.server.room r) (hx : (w.client h).exited = false) :
    (w.drained env h).connectionIdArray.Nodup ∧
      (∀ id, id ∈ (w.drained env h).connectionIdArray ↔
        id ∈ (w.drained env h).connectionPeerDic) ∧
      ∀ id, id ∈ (w.drained env h).connectionIdArray ↔
        ∃ s ∈ w.container.server.room r, s ≠ h ∧ id = some s.id := by
  have hs : w.Synced env := hw.invariant (synced_start env) fun w act h hok => h.step act hok
  obtain ⟨v, hat, hv⟩ := hs.inside h r ((hs.agree.filed_iff h r).mp hin) hx
  have hids : (w.drained env h).connectionIdArray =
      (w.container.server.others r h).map fun s => some s.id :=
    (congrArg Roster.connectionIdArray hat.roster_eq).trans hv.connectionIdArray_eq
  have hdic : (w.drained env h).connectionPeerDic = v.connectionPeerDic :=
    congrArg Roster.connectionPeerDic hat.roster_eq
  have hinj : Function.Injective fun x : Session => some x.id :=
    fun a b hab => Session.ext (Option.some.inj hab)
  rw [hids, hdic]
  refine ⟨((hs.agree.nodup r).filter _).map hinj, fun id => (hv.mem_iff id).symm, fun id => ?_⟩
  simp only [List.mem_map, SignallingServer.mem_others, and_assoc, eq_comm]

end Invariant

/-- Clients with video, on a native library that takes everything. -/
def demoSetting : Setting IntDouble :=
  ⟨fun _ => .error .jsonSyntax, .lenient, fun _ => true, fun _ => TYPE_VIDEO⟩

/-- `a` enters the room `r` and hears so; then `b` enters it. -/
def pairRun : List (Act IntDouble) :=
  [.connect ⟨"a"⟩ "alice", .joinRoom ⟨"a"⟩ (some "r"), .serve ⟨"a"⟩ fun _ => false,
    .serve ⟨"a"⟩ fun _ => false, .deliver ⟨"a"⟩, .connect ⟨"b"⟩ "bob",
    .joinRoom ⟨"b"⟩ (some "r"), .serve ⟨"b"⟩ fun _ => false, .serve ⟨"b"⟩ fun _ => false]

/-- In the run everybody cooperates. -/
theorem pairRun_cooperative : Along (World.step demoSetting) Cooperative start pairRun := by
  refine ⟨⟨rfl, nofun, nofun, nofun⟩, ⟨rfl, fun _ _ he => ?_, nofun, nofun⟩,
    ⟨trivial, nofun, nofun, fun _ _ he _ => ?_⟩, ⟨trivial, nofun, nofun, fun _ _ he _ => ?_⟩,
    ⟨trivial, nofun, nofun, nofun⟩, ⟨rfl, nofun, nofun, nofun⟩,
    ⟨rfl, fun _ _ he => ?_, nofun, nofun⟩, ⟨trivial, nofun, nofun, fun _ _ he _ => ?_⟩,
    ⟨trivial, nofun, nofun, fun _ _ he _ => ?_⟩, trivial⟩
  all_goals
    cases he
    rfl

/-- `a` still has to hear of `b`; once it has, it shows `b` and nobody else. -/
theorem pairRun_agrees : Reachable (World.step demoSetting) Cooperative start
      (pairRun.foldl (World.step demoSetting) start) ∧
    ∀ id, id ∈ ((pairRun.foldl (World.step demoSetting) start).drained demoSetting
        ⟨"a"⟩).connectionIdArray ↔
      ∃ s ∈ (pairRun.foldl (World.step demoSetting) start).container.server.room "r",
        s ≠ ⟨"a"⟩ ∧ id = some s.id := by
  have hw := Along.reachable .init pairRun_cooperative
  exact ⟨hw, (membership_agreement demoSetting hw (List.mem_cons_self ..) rfl).2.2⟩

end World

end WebrtcCaller
