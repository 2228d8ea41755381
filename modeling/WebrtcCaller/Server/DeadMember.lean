import WebrtcCaller.Server.Registry

/-!
# Broadcasts over a room with dead members

A session may be closed by the container while its `onClose` task still waits.
Sending to it raises, and the raise ends whatever task is running. A join and
a close both broadcast before they write the registries, so one dead member
cuts off the members behind it and the registration itself. The conditions
below say exactly when a dead member goes unnoticed.
-/

namespace WebrtcCaller

namespace Container

variable {D : Type} [JavaDouble D]

/-- The join of `s` reaches every live member of the room and is recorded,
although sending to the sessions in `fails` raises. -/
def JoinUndisturbed (c : Container) (fails : Session → Bool) (s : Session) (message : Text D)
    (name : String) : Prop :=
  (∀ m ∈ c.server.room name, m ≠ s → fails m = false →
    SignallingServer.notice (SignallingServer.newPeer s) m ∈
      (c.outcome ⟨.onMessage s message, fails⟩).out) ∧
  s ∈ (c.outcome ⟨.onMessage s message, fails⟩).state.room name ∧
  (c.outcome ⟨.onMessage s message, fails⟩).state.roomList.lookup s.id = some name

/-- The close of `s` reaches every live member of its room and takes `s` out of
all registries, although sending to the sessions in `fails` raises. -/
def CloseUndisturbed (D : Type) [JavaDouble D] (c : Container) (fails : Session → Bool)
    (s : Session) : Prop :=
  let outcome := c.outcome ⟨(.onClose s : ServerEvent D), fails⟩
  (∀ name, c.server.roomList.lookup s.id = some name →
    ∀ m ∈ c.server.room name, m ≠ s → fails m = false →
      SignallingServer.notice (SignallingServer.removePeer s) m ∈ outcome.out) ∧
  s ∉ outcome.state.sockets ∧ (∀ name, s ∉ outcome.state.room name) ∧
  outcome.state.roomList.lookup s.id = none

/-- No member of the room other than `s` is dead. -/
def AllLive (c : Container) (fails : Session → Bool) (s : Session) (name : String) : Prop :=
  ∀ m ∈ c.server.room name, m ≠ s → fails m = false

/-- `s` is already recorded in the room, and every live member of it is listed
ahead of the first dead one. -/
def RecordedAhead (c : Container) (fails : Session → Bool) (s : Session) (name : String) : Prop :=
  s ∈ c.server.room name ∧ c.server.roomList.lookup s.id = some name ∧
    ∀ m ∈ c.server.room name, m ≠ s → fails m = false →
      m ∈ (c.server.others name s).takeWhile (!fails ·)

/-- `s` is listed no more than once in the room it is filed under, and in no other room. -/
def ListedOnce (c : Container) (s : Session) (name : String) : Prop :=
  (c.server.room name).count s ≤ 1 ∧ ∀ r, r ≠ name → s ∉ c.server.room r

/-- A notice names its member, so the same notice goes to each of them once. -/
theorem notice_mem_map {send : SignallingData D} {m : Session} {ms : List Session} :
    SignallingServer.notice send m ∈ ms.map (SignallingServer.notice send) ↔ m ∈ ms := by
  simp [SignallingServer.notice]

/-- All the other members are live when no send to them fails. -/
theorem any_others_false_iff {c : Container} {fails : Session → Bool} {s : Session}
    {name : String} : (c.server.others name s).any fails = false ↔ c.AllLive fails s name := by
  simp [AllLive, List.any_eq_false, SignallingServer.mem_others]

/-- Removing one occurrence leaves none exactly when there was at most one. -/
theorem not_mem_erase_iff_count {xs : List Session} {s : Session} :
    s ∉ xs.erase s ↔ xs.count s ≤ 1 := by
  rw [← List.count_eq_zero, List.count_erase_self]
  omega

/-- A join goes through exactly when nobody in the room is dead, or when it had
nothing left to do behind the first dead member. -/
theorem joinUndisturbed_iff {c : Container} {fails : Session → Bool} {s : Session}
    (hs : fails s = false) {message : Text D} {name : String}
    (hj : SignallingServer.joinTarget message = some name) :
    c.JoinUndisturbed fails s message name ↔
      c.AllLive fails s name ∨ c.RecordedAhead fails s name := by
  have hrun : c.outcome ⟨.onMessage s message, fails⟩ =
      SignallingServer.joinOutcome fails name s c.server := by
    rcases SignallingServer.onMessage_cases fails message s c.server with
      ⟨name', hj', hrun⟩ | ⟨hj', _⟩
    · obtain rfl := Option.some.inj (hj'.symm.trans hj)
      exact hrun
    · simp [hj] at hj'
  unfold JoinUndisturbed
  rw [hrun]
  by_cases hlive : (c.server.others name s).any fails = false
  · refine iff_of_true ⟨fun m hm hne _ => ?_, ?_, ?_⟩ (Or.inl (any_others_false_iff.mp hlive))
    · simp only [SignallingServer.joinOutcome, hlive, hs]
      exact List.mem_append_left _ (notice_mem_map.mpr (SignallingServer.mem_others.mpr ⟨hm, hne⟩))
    · simp [SignallingServer.joinOutcome, hlive, hs, SignallingServer.room_registered]
    · simp [SignallingServer.joinOutcome, hlive, hs,
        SignallingServer.lookup_roomList_registered]
  · have hdead : ¬c.AllLive fails s name := fun h => hlive (any_others_false_iff.mpr h)
    have hany : (c.server.others name s).any fails = true := by simpa using hlive
    simp only [SignallingServer.joinOutcome, hany, if_true, notice_mem_map, hdead, false_or,
      RecordedAhead]
    constructor
    · rintro ⟨hout, hin, hfiled⟩
      exact ⟨hin, hfiled, hout⟩
    · rintro ⟨hin, hfiled, hout⟩
      exact ⟨hout, hin, hfiled⟩

/-- A close goes through exactly when its session is filed under no room, or is
listed once and nobody else in the room is dead. -/
theorem closeUndisturbed_iff {c : Container} (h : c.Filed) {fails : Session → Bool} {s : Session}
    (hopen : c.phase s = .opened) :
    c.CloseUndisturbed D fails s ↔
      ∀ name, c.server.roomList.lookup s.id = some name →
        c.AllLive fails s name ∧ c.ListedOnce s name := by
  have hmem : s ∈ c.server.sockets := h.connected s hopen
  unfold CloseUndisturbed
  simp only [outcome, ServerEvent.task, SignallingServer.run_onClose,
    SignallingServer.closeOutcome]
  cases hr : c.server.roomList.lookup s.id with
  | none =>
    refine iff_of_true ⟨by simp, h.sockets_nodup.not_mem_erase, fun name hin => ?_, hr⟩ (by simp)
    have hfiled := h.filed s name hin (by simp [hopen])
    simp [hr] at hfiled
  | some name =>
    obtain ⟨xs, hx⟩ := Option.isSome_iff_exists.mp (h.listed _ _ hr)
    simp only [hx, Option.some.injEq, forall_eq']
    by_cases hlive : (c.server.others name s).any fails = false
    · have hall := any_others_false_iff.mp hlive
      simp only [hlive, Bool.false_eq_true, if_false, hall, true_and, notice_mem_map]
      have hrooms : (∀ r, s ∉ (c.server.unregistered name s).room r) ↔ c.ListedOnce s name := by
        rw [ListedOnce, ← not_mem_erase_iff_count]
        constructor
        · intro hrooms
          refine ⟨?_, fun r hr => ?_⟩
          · simpa [SignallingServer.room_unregistered] using hrooms name
          · simpa [SignallingServer.room_unregistered, hr] using hrooms r
        · rintro ⟨hself, hother⟩ r
          rw [SignallingServer.room_unregistered]
          split
          · exact hself
          · exact hother r ‹_›
      rw [hrooms]
      constructor
      · exact fun hcond => hcond.2.2.1
      · intro honce
        refine ⟨fun m hm hne _ => SignallingServer.mem_others.mpr ⟨hm, hne⟩,
          h.sockets_nodup.not_mem_erase, honce, ?_⟩
        simp [SignallingServer.lookup_roomList_unregistered]
    · have hany : (c.server.others name s).any fails = true := by simpa using hlive
      refine iff_of_false ?_ fun hcond => hlive (any_others_false_iff.mpr hcond.1)
      rintro ⟨_, hgone, _⟩
      simp only [hany, if_true] at hgone
      exact hgone hmem

/-- The registries are filed in every reachable state. -/
theorem filed_of_reachable {c : Container}
    (h : Reachable step (Allowed (D := D)) start c) : c.Filed :=
  h.invariant filed_start fun _ job hc hok => hc.step job hok

/-- Exactly when a dead member goes unnoticed, in every state the runner can
reach with or without dead members before. -/
theorem dead_member_unnoticed_iff {c : Container}
    (hr : Reachable step (Allowed (D := D)) start c) (fails : Session → Bool) (s : Session)
    (hopen : c.phase s = .opened) (hs : fails s = false) :
    (∀ (message : Text D) (name : String), SignallingServer.joinTarget message = some name →
      (c.JoinUndisturbed fails s message name ↔
        c.AllLive fails s name ∨ c.RecordedAhead fails s name)) ∧
    (c.CloseUndisturbed D fails s ↔
      ∀ name, c.server.roomList.lookup s.id = some name →
        c.AllLive fails s name ∧ c.ListedOnce s name) :=
  ⟨fun _ _ hj => joinUndisturbed_iff hs hj, closeUndisturbed_iff (filed_of_reachable hr) hopen⟩

/-- Two members in the room `r`, and a third session about to join. -/
def twoMembersRun : List (Job IntDouble) :=
  [.onOpen ⟨"a"⟩ "alice", .onOpen ⟨"b"⟩ "bob", .onOpen ⟨"c"⟩ "carol", .onMessage ⟨"a"⟩ joinR,
    .onMessage ⟨"b"⟩ joinR].map (⟨·, fun _ => false⟩)

/-- The container after both members have joined. -/
def twoMembers : Container := twoMembersRun.foldl step start

/-- Two members in one room, and a connected session outside of it, are reachable. -/
theorem twoMembers_reachable : Reachable step (Allowed (D := IntDouble)) start twoMembers :=
  Along.reachable .init ⟨rfl, rfl, rfl, rfl, rfl, trivial⟩

/-- With the first member dead, a join is neither announced to the second nor
recorded, and the second cannot leave. -/
theorem dead_member_disturbs : Reachable step (Allowed (D := IntDouble)) start twoMembers ∧
    ¬twoMembers.JoinUndisturbed (· = ⟨"a"⟩) ⟨"c"⟩ joinR "r" ∧
    ¬twoMembers.CloseUndisturbed IntDouble (· = ⟨"a"⟩) ⟨"b"⟩ := by
  refine ⟨twoMembers_reachable, ?_, ?_⟩
  · rintro ⟨_, hin, _⟩
    exact absurd hin (by decide)
  · rintro ⟨_, hgone, _⟩
    exact absurd hgone (by decide)

/-- Neither a join nor a close is disturbed while only the session outside is dead. -/
theorem live_members_undisturbed :
    twoMembers.JoinUndisturbed (· = ⟨"z"⟩) ⟨"b"⟩ joinR "r" ∧
    twoMembers.CloseUndisturbed IntDouble (· = ⟨"z"⟩) ⟨"b"⟩ := by
  have hlive : twoMembers.AllLive (· = ⟨"z"⟩) ⟨"b"⟩ "r" := by
    unfold AllLive
    decide
  have hroom : twoMembers.server.roomList.lookup "b" = some "r" := by decide
  have h := dead_member_unnoticed_iff twoMembers_reachable (· = ⟨"z"⟩) ⟨"b"⟩ (by decide) (by decide)
  refine ⟨(h.1 joinR "r" (by decide)).mpr (Or.inl hlive), h.2.mpr fun name hname => ?_⟩
  obtain rfl := Option.some.inj (hroom.symm.trans hname)
  refine ⟨hlive, by decide, fun r hr => ?_⟩
  have hkeys : twoMembers.server.rooms.keys = ["r"] := by decide
  have hrooms : twoMembers.server.rooms.lookup r = none := by
    rw [AList.lookup_eq_none, AList.mem_keys, hkeys]
    simpa using hr
  simp [SignallingServer.room, bucket, hrooms]

end Container

end WebrtcCaller
