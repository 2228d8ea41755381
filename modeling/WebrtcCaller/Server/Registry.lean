import WebrtcCaller.Server.Runner

/-!
# Coherence of the room registries

The lists of `rooms`, the map `roomList` and the list `sockets` are meant to
say the same thing. A run keeps them together exactly as long as no session
asks to join while it is already filed under a room: `join` appends without
looking, and `removeSocket` removes one entry from one list.
-/

namespace WebrtcCaller

variable {D : Type}

/-- The ids listed by a `_peers` text. -/
def Text.peersNamed (text : Text D) : List String :=
  match text.tree with
  | some (.obj fs) =>
    match Fields.get fs "eventName", Fields.get fs "data" with
    | .str eventName, .obj data =>
      if eventName = "_peers" then
        match Fields.get data "connections" with
        | .arr ids => ids.filterMap fun id => match id with | .str s => some s | _ => none
        | _ => []
      else []
    | _, _ => []
  | _ => []

/-- The three registries that mention rooms say the same thing. -/
structure SignallingServer.Agree (server : SignallingServer) : Prop where
  nodup : ∀ r, (server.room r).Nodup
  filed_iff : ∀ s r, s ∈ server.room r ↔ server.roomList.lookup s.id = some r
  connected : ∀ s r, s ∈ server.room r → s ∈ server.sockets

namespace SignallingServer.Agree

variable {server : SignallingServer}

/-- Empty registries agree. -/
theorem empty : SignallingServer.empty.Agree :=
  ⟨fun _ => List.nodup_nil, fun _ _ => by simp [SignallingServer.empty, room],
    fun _ _ h => by simp [SignallingServer.empty, room] at h⟩

/-- Room lists of an agreeing server share nobody. -/
theorem nodup_allBuckets (h : server.Agree) : (allBuckets server.rooms).Nodup := by
  refine nodup_allBuckets_iff.mpr ⟨h.nodup, fun r r' s hs hs' => ?_⟩
  exact Option.some.inj (((h.filed_iff s r).mp hs).symm.trans ((h.filed_iff s r').mp hs'))

/-- A session filed under no room is in no room. -/
theorem not_mem_room (h : server.Agree) {s : Session}
    (hnone : server.roomList.lookup s.id = none) (r : String) : s ∉ server.room r := by
  intro hs
  rw [h.filed_iff, hnone] at hs
  cases hs

/-- Joining while filed under no room keeps the agreement. -/
theorem registered (h : server.Agree) {socket : Session}
    (hfresh : server.roomList.lookup socket.id = none) (hmem : socket ∈ server.sockets)
    (name : String) : (server.registered name socket).Agree where
  nodup r := by
    have hnew := h.not_mem_room hfresh name
    rw [room_registered]
    split
    · exact List.nodup_append.mpr ⟨h.nodup name, List.nodup_singleton _, by grind⟩
    · exact h.nodup r
  filed_iff s r := by
    rw [room_registered, lookup_roomList_registered]
    by_cases hs : s = socket
    · subst hs
      have hnew := h.not_mem_room hfresh r
      by_cases hr : r = name
      · simp [hr]
      · simpa [hr, Ne.symm hr] using hnew
    · have hid : s.id ≠ socket.id := fun heq => hs (Session.ext heq)
      rw [if_neg hid, ← h.filed_iff]
      by_cases hr : r = name
      · simp [hr, hs]
      · simp [hr]
  connected s r hs := by
    rw [room_registered] at hs
    by_cases hr : r = name
    · rw [if_pos hr, List.mem_append, List.mem_singleton] at hs
      rcases hs with hs | rfl
      · exact h.connected s name hs
      · exact hmem
    · rw [if_neg hr] at hs
      exact h.connected s r hs

/-- Joining once more breaks it: the session is now listed twice. -/
theorem not_registered (h : server.Agree) {socket : Session} {old : String}
    (hold : server.roomList.lookup socket.id = some old) (name : String) :
    ¬(server.registered name socket).Agree := by
  intro h'
  have hin : socket ∈ server.room old := (h.filed_iff socket old).mpr hold
  by_cases hr : old = name
  · subst hr
    have hn := h'.nodup old
    rw [room_registered, if_pos rfl, List.nodup_append] at hn
    exact hn.2.2 socket hin socket (List.mem_singleton_self _) rfl
  · have hstill : socket ∈ (server.registered name socket).room old := by
      rw [room_registered, if_neg hr]
      exact hin
    rw [h'.filed_iff, lookup_roomList_registered, if_pos rfl] at hstill
    exact hr (Option.some.inj hstill).symm

/-- A close that finds its session filed once keeps the agreement. -/
theorem unregistered (h : server.Agree) {session : Session} {name : String}
    (hfiled : server.roomList.lookup session.id = some name) :
    (server.unregistered name session).Agree where
  nodup r := by
    rw [room_unregistered]
    split
    · exact (h.nodup name).erase session
    · exact h.nodup r
  filed_iff s r := by
    rw [room_unregistered, lookup_roomList_unregistered]
    by_cases hs : s = session
    · subst hs
      have hother : r ≠ name → s ∉ server.room r := by
        intro hr hin
        rw [h.filed_iff, hfiled] at hin
        exact hr (Option.some.inj hin).symm
      by_cases hr : r = name
      · simpa [hr] using (h.nodup name).not_mem_erase
      · simpa [hr] using hother hr
    · have hid : s.id ≠ session.id := fun heq => hs (Session.ext heq)
      rw [if_neg hid, ← h.filed_iff]
      by_cases hr : r = name
      · simp [hr, List.mem_erase_of_ne hs]
      · simp [hr]
  connected s r hs := by
    rw [room_unregistered] at hs
    have hne : s ≠ session := by
      rintro rfl
      by_cases hr : r = name
      · rw [if_pos hr] at hs
        exact (h.nodup name).not_mem_erase hs
      · rw [if_neg hr, h.filed_iff, hfiled] at hs
        exact hr (Option.some.inj hs).symm
    have hin : s ∈ server.room r := by
      by_cases hr : r = name
      · subst hr
        rw [if_pos rfl] at hs
        exact List.mem_of_mem_erase hs
      · rwa [if_neg hr] at hs
    exact (List.mem_erase_of_ne hne).mpr (h.connected s r hin)

/-- Changing `sockets` and `userIds` keeps the agreement while nobody in a room leaves. -/
theorem of_sockets (h : server.Agree) {sockets : List Session}
    {userIds : AList fun _ : String => Session}
    (hsub : ∀ s r, s ∈ server.room r → s ∈ server.sockets → s ∈ sockets) :
    SignallingServer.Agree { server with sockets := sockets, userIds := userIds } :=
  ⟨h.nodup, h.filed_iff, fun s r hs => hsub s r hs (h.connected s r hs)⟩

end SignallingServer.Agree

namespace Container

/-- The registries agree, and a closed session has left them. -/
structure Coherent (c : Container) : Prop where
  /-- Over all room lists together, nobody is listed twice. -/
  once : (allBuckets c.server.rooms).Nodup
  filed_iff : ∀ s r, s ∈ c.server.room r ↔ c.server.roomList.lookup s.id = some r
  connected : ∀ s ∈ allBuckets c.server.rooms, s ∈ c.server.sockets
  closed_absent : ∀ s, c.phase s = .closed → s ∉ allBuckets c.server.rooms

/-- Allowed, with every send succeeding. -/
def Quiet (c : Container) (job : Job D) : Prop :=
  c.Allowed job ∧ ∀ s, job.fails s = false

/-- A join comes from a session that is filed under no room. -/
def FreshJoin [JavaDouble D] (c : Container) (job : Job D) : Prop :=
  ∀ session message name, job.event = .onMessage session message →
    SignallingServer.joinTarget message = some name →
    c.server.roomList.lookup session.id = none

/-- No `_peers` text of the step lists a session that is closed by then. -/
def NamesNoClosed [JavaDouble D] (c : Container) (job : Job D) : Prop :=
  ∀ sent ∈ (c.outcome job).out, ∀ s, c.phase s = .closed → s.id ∉ sent.text.peersNamed

theorem coherent_start : start.Coherent := by
  have hr : allBuckets start.server.rooms = [] := rfl
  refine ⟨by rw [hr]; exact List.nodup_nil, ?_, by simp [hr], by simp [hr]⟩
  intro s r
  simp [start, SignallingServer.empty, SignallingServer.room]

/-- What the runs without failing sends keep, coherent or not. -/
structure Steady (c : Container) : Prop extends c.Filed where
  /-- Only opened sessions are connected. -/
  only_opened : ∀ s, s ∈ c.server.sockets → c.phase s = .opened

variable [JavaDouble D]

theorem steady_start : start.Steady :=
  ⟨filed_start, fun s h => by simp [start, SignallingServer.empty] at h⟩

/-- A quiet close either only leaves `sockets` or takes its session out everywhere. -/
theorem server_close {c : Container} (h : c.Filed) {fails : Session → Bool}
    (hf : ∀ s, fails s = false) (session : Session) :
    (c.step ⟨(.onClose session : ServerEvent D), fails⟩).server =
      match c.server.roomList.lookup session.id with
      | none => { c.server with sockets := c.server.sockets.erase session }
      | some name => c.server.unregistered name session := by
  have hany (xs : List Session) : xs.any fails = false := by simp [hf]
  simp only [step, outcome, ServerEvent.task, SignallingServer.run_onClose,
    SignallingServer.closeOutcome]
  cases hr : c.server.roomList.lookup session.id with
  | none => rfl
  | some name =>
    obtain ⟨xs, hx⟩ := Option.isSome_iff_exists.mp (h.listed _ _ hr)
    simp only [hx, hany]
    rfl

/-- A quiet close always takes its session out of `sockets`. -/
theorem sockets_close {c : Container} (h : c.Filed) {fails : Session → Bool} (session : Session)
    (hf : ∀ s, fails s = false) :
    (c.step ⟨(.onClose session : ServerEvent D), fails⟩).server.sockets =
      c.server.sockets.erase session := by
  rw [server_close h hf session]
  split <;> rfl

/-- Every quiet job keeps what is known of the registries even where they do not agree. -/
theorem Steady.step {c : Container} (h : c.Steady) (job : Job D) (hok : c.Quiet job) :
    (c.step job).Steady := by
  refine ⟨h.toFiled.step job hok.1, ?_⟩
  intro s hmem
  obtain ⟨event, fails⟩ := job
  by_cases hs : s = event.session
  · subst hs
    rw [phase_step_self]
    cases event with
    | onOpen session userId => rfl
    | onMessage session message => rfl
    | onClose session =>
      rw [sockets_close h.toFiled session hok.2] at hmem
      exact absurd hmem h.sockets_nodup.not_mem_erase
  · rw [phase_step_of_ne hs]
    apply h.only_opened s
    rcases c.sockets_step ⟨event, fails⟩ with ⟨session, userId, he, hk⟩ | ⟨session, _, hk⟩ | ⟨hk, _⟩
    · rw [hk] at hmem
      have hne : s ≠ session := fun heq => hs (by rw [show event = _ from he]; exact heq)
      split at hmem
      · exact hmem
      · simpa [hne] using hmem
    · rw [hk] at hmem
      exact List.mem_of_mem_erase hmem
    · rwa [hk] at hmem

/-- A quiet join always registers its session. -/
theorem server_join {c : Container} {fails : Session → Bool} (hf : ∀ s, fails s = false)
    (session : Session) {message : Text D} {name : String}
    (hj : SignallingServer.joinTarget message = some name) :
    (c.step ⟨.onMessage session message, fails⟩).server = c.server.registered name session := by
  have hany (xs : List Session) : xs.any fails = false := by simp [hf]
  rcases SignallingServer.onMessage_cases fails message session c.server with
    ⟨name', hj', hrun⟩ | ⟨hj', _⟩
  · obtain rfl := Option.some.inj (hj'.symm.trans hj)
    simp [step, outcome, ServerEvent.task, hrun, SignallingServer.joinOutcome, hany, hf]
  · simp [hj] at hj'

/-- In a steady state, coherence is the agreement of the registries. -/
theorem Steady.coherent_iff {c : Container} (h : c.Steady) : c.Coherent ↔ c.server.Agree := by
  constructor
  · intro hc
    exact ⟨(nodup_allBuckets_iff.mp hc.once).1, hc.filed_iff,
      fun s r hs => hc.connected s (mem_allBuckets.mpr ⟨r, hs⟩)⟩
  · intro ha
    have hconn : ∀ s ∈ allBuckets c.server.rooms, s ∈ c.server.sockets := by
      intro s hs
      obtain ⟨r, hr⟩ := mem_allBuckets.mp hs
      exact ha.connected s r hr
    refine ⟨ha.nodup_allBuckets, ha.filed_iff, hconn, fun s hclosed hs => ?_⟩
    have hopen := h.only_opened s (hconn s hs)
    rw [hopen] at hclosed
    cases hclosed

/-- A message that is no join leaves the server as it is. -/
theorem server_of_joinTarget_none {c : Container} {fails : Session → Bool} (session : Session)
    {message : Text D} (hj : SignallingServer.joinTarget message = none) :
    (c.step ⟨.onMessage session message, fails⟩).server = c.server := by
  rcases SignallingServer.onMessage_cases fails message session c.server with
    ⟨name, hj', _⟩ | ⟨_, hs, _⟩
  · simp [hj] at hj'
  · exact hs

/-- One quiet step keeps the agreement exactly when it is no repeated join. -/
theorem agree_step_iff {c : Container} (h : c.Steady) (ha : c.server.Agree) (job : Job D)
    (hok : c.Quiet job) : (c.step job).server.Agree ↔ c.FreshJoin job := by
  obtain ⟨event, fails⟩ := job
  cases event with
  | onOpen session userId =>
    refine iff_of_true ?_ fun _ _ _ he => by cases he
    simp only [step, outcome, ServerEvent.task, SignallingServer.run_onOpen]
    refine ha.of_sockets fun s r _ hs => ?_
    split
    · exact hs
    · exact List.mem_append_left _ hs
  | onMessage session message =>
    cases hj : SignallingServer.joinTarget message with
    | none =>
      rw [server_of_joinTarget_none session hj]
      refine iff_of_true ha fun s m name he hj' => ?_
      cases he
      rw [hj] at hj'
      cases hj'
    | some name =>
      rw [server_join hok.2 session hj]
      cases hl : c.server.roomList.lookup session.id with
      | none =>
        refine iff_of_true (ha.registered hl (h.connected session hok.1) name) ?_
        intro s m name' he _
        cases he
        exact hl
      | some old =>
        refine iff_of_false (ha.not_registered hl name) fun hfresh => ?_
        have := hfresh session message name rfl hj
        rw [hl] at this
        cases this
  | onClose session =>
    refine iff_of_true ?_ fun _ _ _ he => by cases he
    rw [server_close h.toFiled hok.2 session]
    cases hl : c.server.roomList.lookup session.id with
    | none =>
      refine ha.of_sockets fun s r hr hs => ?_
      have hne : s ≠ session := fun heq => ha.not_mem_room hl r (heq ▸ hr)
      exact (List.mem_erase_of_ne hne).mpr hs
    | some name => exact ha.unregistered hl

/-- The ids a server text lists as peers: only `_peers` lists any. -/
theorem peersNamed_notice {eventName : String} {data : Fields D} (dst : Session)
    (h : eventName ≠ "_peers") :
    (SignallingServer.notice ⟨some eventName, some data⟩ dst).text.peersNamed = [] := by
  simp [SignallingServer.notice, SignallingData.written_tree, Text.peersNamed, Fields.get, h]

/-- The answer to a join lists the ids in it. -/
theorem peersNamed_peers (ids : List String) (socket dst : Session) :
    (SignallingServer.notice (SignallingServer.peers ids socket : SignallingData D)
      dst).text.peersNamed = ids := by
  simp [SignallingServer.notice, SignallingServer.peers, SignallingData.written_tree,
    Text.peersNamed, Fields.get_written, Fields.get, Json.written,
    SignallingServer.writtenElems_strings, List.filterMap_map]

/-- Only a join lists peers, and it lists members of the room it is for. -/
theorem mem_peersNamed {c : Container} {job : Job D} {sent : Sent D}
    (hsent : sent ∈ (c.outcome job).out) {id : String} (hid : id ∈ sent.text.peersNamed) :
    ∃ name, ∃ s ∈ c.server.room name, s.id = id := by
  rcases mem_out_cases hsent with ⟨session, message, name, _, _, ⟨dst, _, rfl⟩ | rfl⟩ |
    ⟨session, message, _, _, event, hmem, fs, dst, _, rfl⟩ | ⟨session, name, _, _, dst, _, rfl⟩
  · rw [SignallingServer.newPeer, peersNamed_notice dst (by decide)] at hid
    cases hid
  · rw [peersNamed_peers] at hid
    obtain ⟨s, hs, rfl⟩ := List.mem_map.mp hid
    exact ⟨name, s, (List.mem_filter.mp hs).1, rfl⟩
  · have hne : event.1 ≠ "_peers" := by
      simp only [SignallingServer.relays, List.mem_cons, List.not_mem_nil, or_false] at hmem
      rcases hmem with rfl | rfl | rfl <;> decide
    rw [SignallingServer.relayed, peersNamed_notice dst hne] at hid
    cases hid
  · rw [SignallingServer.removePeer, peersNamed_notice dst (by decide)] at hid
    cases hid

/-- A coherent server lists no closed session. -/
theorem Coherent.namesNoClosed {c : Container} (h : c.Coherent) (job : Job D) :
    c.NamesNoClosed job := by
  intro sent hsent s hclosed hid
  obtain ⟨name, s', hs', heq⟩ := mem_peersNamed hsent hid
  obtain rfl : s' = s := Session.ext heq
  exact h.closed_absent s' hclosed (mem_allBuckets.mpr ⟨name, hs'⟩)

/-- A run without failing sends keeps the registries coherent, and never lists
a closed session, exactly when no session joins while it is filed under a room. -/
theorem registries_coherent_iff (jobs : List (Job D)) (hok : Along step Quiet start jobs) :
    (Throughout step Coherent start jobs ∧ Along step NamesNoClosed start jobs) ↔
      Along step FreshJoin start jobs := by
  have hiff : Throughout step Coherent start jobs ↔ Along step FreshJoin start jobs := by
    refine throughout_iff_along (J := Steady) (fun c job h hq => h.step job hq) ?_
      steady_start coherent_start hok
    intro c job hj hc hq
    rw [(hj.step job hq).coherent_iff]
    exact agree_step_iff hj (hj.coherent_iff.mp hc) job hq
  rw [← hiff]
  exact ⟨And.left, fun h => ⟨h, h.along (fun c job hc _ => hc.namesNoClosed job) hok⟩⟩

/-- What the client sends to enter the room `r`. -/
def joinR : Text IntDouble :=
  ⟨"\x7b\"eventName\":\"__join\",\"data\":\x7b\"room\":\"r\"\x7d\x7d",
    some (.obj [("eventName", .str "__join"), ("data", .obj [("room", .str "r")])])⟩

/-- A session joins twice and closes; its second listing stays behind, and the
next newcomer is told about it. -/
def secondJoinRun : List (Job IntDouble) :=
  [.onOpen ⟨"a"⟩ "alice", .onMessage ⟨"a"⟩ joinR, .onMessage ⟨"a"⟩ joinR, .onClose ⟨"a"⟩,
    .onOpen ⟨"b"⟩ "bob", .onMessage ⟨"b"⟩ joinR].map (⟨·, fun _ => false⟩)

/-- The session that has joined twice is listed after its close, and told to the next one. -/
theorem secondJoin_incoherent : Along step Quiet start secondJoinRun ∧
    ¬Throughout step Coherent start secondJoinRun ∧
    ¬Along step NamesNoClosed start secondJoinRun := by
  refine ⟨?_, ?_, ?_⟩
  · refine ⟨⟨rfl, fun _ => rfl⟩, ⟨rfl, fun _ => rfl⟩, ⟨rfl, fun _ => rfl⟩, ⟨rfl, fun _ => rfl⟩,
      ⟨rfl, fun _ => rfl⟩, ⟨rfl, fun _ => rfl⟩, trivial⟩
  · rintro ⟨_, _, _, h, _⟩
    exact absurd h.once (by decide)
  · rintro ⟨_, _, _, _, _, h, _⟩
    exact h _ (List.mem_cons_of_mem _ (List.mem_cons_self ..)) ⟨"a"⟩ (by decide) (by decide)

/-- Two sessions join once each; the second one is told about the first, and leaves it there. -/
def singleJoinRun : List (Job IntDouble) :=
  [.onOpen ⟨"a"⟩ "alice", .onMessage ⟨"a"⟩ joinR, .onOpen ⟨"b"⟩ "bob", .onMessage ⟨"b"⟩ joinR,
    .onClose ⟨"b"⟩].map (⟨·, fun _ => false⟩)

/-- The second session joins, is told about the first one, and closes; nothing stays behind. -/
theorem singleJoin_coherent : Along step Quiet start singleJoinRun ∧
    Along step FreshJoin start singleJoinRun ∧
    Throughout step Coherent start singleJoinRun := by
  have hok : Along step Quiet start singleJoinRun :=
    ⟨⟨rfl, fun _ => rfl⟩, ⟨rfl, fun _ => rfl⟩, ⟨rfl, fun _ => rfl⟩, ⟨rfl, fun _ => rfl⟩,
      ⟨rfl, fun _ => rfl⟩, trivial⟩
  have hfresh : Along step FreshJoin start singleJoinRun := by
    refine ⟨fun _ _ _ he => (by cases he), fun s m name he _ => ?_, fun _ _ _ he => (by cases he),
      fun s m name he _ => ?_, fun _ _ _ he => (by cases he), trivial⟩
    · cases he
      decide
    · cases he
      decide
  exact ⟨hok, hfresh, ((registries_coherent_iff _ hok).mpr hfresh).1⟩

end Container

end WebrtcCaller
