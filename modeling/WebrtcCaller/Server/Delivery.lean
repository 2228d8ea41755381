import WebrtcCaller.Server.Im

/-!
# Where instant messages go

The forward map of `ImServer` is overwritten and erased by sessions other than
the one it names, but never left naming a closed one: an entry is written by an
open of its session, and the close of that session erases the entry of its user.
So a message reaches at most one session, one of its addressee's that is open.
-/

namespace WebrtcCaller

variable {D : Type} [JavaDouble D]

namespace ImServer

/-- The user a text is addressed to. -/
def dstId (message : Text D) : Option String :=
  match parseObject message with
  | .ok (some recv) => (Fields.get recv "dstId").getString
  | _ => none

/-- A text is forwarded unchanged to the session filed under its `dstId`, or to nobody. -/
theorem out_onMessage (readsObject : String → Bool) (message : Text D) (server : ImServer) :
    ((onMessage readsObject message).run server).out = [] ∨
      ∃ u session, dstId message = some u ∧ server.sessionMap1.lookup u = some session ∧
        ((onMessage readsObject message).run server).out = [⟨session, message⟩] := by
  simp only [onMessage, Task.run_swallow, handleMessage, Task.run_bind, Task.run_ofExcept, dstId]
  rcases parseObject message with e | _ | recv
  · exact Or.inl rfl
  · exact Or.inl rfl
  · simp only [Outcome.andThen_ok, deref, Task.run_bind, Task.run_ofExcept]
    cases getJSONObject readsObject recv with
    | error e => exact Or.inl rfl
    | ok _ =>
      cases (Fields.get recv "dstId").getString with
      | none => exact Or.inl rfl
      | some u =>
        simp only [Outcome.andThen_ok, Task.run_bind, Task.run_ofExcept, Task.run_get]
        cases hl : server.sessionMap1.lookup u with
        | none => exact Or.inl rfl
        | some session => exact Or.inr ⟨u, session, rfl, hl, rfl⟩

end ImServer

namespace ImContainer

variable {readsObject : String → Bool} {userId : Session → String} {c : ImContainer}
  {event : ImEvent D} {events : List (ImEvent D)}

/-- Each session is opened once, and closed at most once after that. -/
def OpenedOnce (c : ImContainer) : ImEvent D → Prop
  | .onOpen session => c.phase session = .unopened
  | .onClose session => c.phase session = .opened
  | .onMessage _ _ => True

/-- The phases are those the executed callbacks have left. -/
structure Recorded (events : List (ImEvent D)) (c : ImContainer) : Prop where
  unopened : ∀ s, c.phase s = .unopened → .onClose s ∉ events
  opened : ∀ s, c.phase s = .opened → .onOpen s ∈ events ∧ .onClose s ∉ events

/-- Every callback keeps the phases recorded. -/
theorem Recorded.step (h : Recorded events c) (hok : c.OpenedOnce event) :
    Recorded (events ++ [event]) (c.step readsObject userId event) := by
  cases event with
  | onMessage session message =>
    rw [step_onMessage]
    refine ⟨fun s hs => ?_, fun s hs => ?_⟩
    · simpa using h.unopened s hs
    · simpa using h.opened s hs
  | onOpen session =>
    refine ⟨fun s hs => ?_, fun s hs => ?_⟩
    · change Function.update c.phase session .opened s = .unopened at hs
      have hne : s ≠ session := by
        rintro rfl
        simp at hs
      rw [Function.update_of_ne hne] at hs
      simpa using h.unopened s hs
    · change Function.update c.phase session .opened s = .opened at hs
      by_cases hne : s = session
      · subst hne
        simpa using h.unopened s hok
      · rw [Function.update_of_ne hne] at hs
        simpa [hne] using h.opened s hs
  | onClose session =>
    have hne (s : Session) (p : Phase) (hp : p ≠ .closed)
        (hs : Function.update c.phase session .closed s = p) : s ≠ session ∧ c.phase s = p := by
      by_cases he : s = session
      · subst he
        rw [Function.update_self] at hs
        exact absurd hs.symm hp
      · rw [Function.update_of_ne he] at hs
        exact ⟨he, hs⟩
    refine ⟨fun s hs => ?_, fun s hs => ?_⟩
    · obtain ⟨he, hs⟩ := hne s _ (by simp) hs
      simpa [he] using h.unopened s hs
    · obtain ⟨he, hs⟩ := hne s _ (by simp) hs
      simpa [he] using h.opened s hs

/-- The registries know every open session, under its user. -/
structure Filed (userId : Session → String) (c : ImContainer) : Prop where
  mem_sockets : ∀ s, c.phase s = .opened → s ∈ c.server.sockets
  lookup_sessionMap2 : ∀ s, c.phase s = .opened →
    c.server.sessionMap2.lookup s = some (userId s)

theorem filed_start : start.Filed userId := ⟨nofun, nofun⟩

/-- Every callback keeps the open sessions filed. -/
theorem Filed.step (h : c.Filed userId) (event : ImEvent D) :
    (c.step readsObject userId event).Filed userId := by
  cases event with
  | onMessage session message => rwa [step_onMessage]
  | onOpen session =>
    refine ⟨fun s hs => ?_, fun s hs => ?_⟩
    all_goals change Function.update c.phase session .opened s = .opened at hs
    · change s ∈ c.server.sockets ++ [session]
      by_cases hne : s = session
      · exact List.mem_append_right _ (List.mem_singleton.mpr hne)
      · rw [Function.update_of_ne hne] at hs
        exact List.mem_append_left _ (h.mem_sockets s hs)
    · change (c.server.sessionMap2.insert session (userId session)).lookup s = some (userId s)
      by_cases hne : s = session
      · rw [hne, AList.lookup_insert]
      · rw [Function.update_of_ne hne] at hs
        rw [AList.lookup_insert_ne hne]
        exact h.lookup_sessionMap2 s hs
  | onClose session =>
    have hne (s : Session) (hs : Function.update c.phase session .closed s = .opened) :
        s ≠ session ∧ c.phase s = .opened := by
      by_cases he : s = session
      · subst he
        simp at hs
      · rw [Function.update_of_ne he] at hs
        exact ⟨he, hs⟩
    refine ⟨fun s hs => ?_, fun s hs => ?_⟩
    all_goals obtain ⟨he, hs⟩ := hne s hs
    · exact (List.mem_erase_of_ne he).mpr (h.mem_sockets s hs)
    · change (c.server.sessionMap2.erase session).lookup s = some (userId s)
      rw [AList.lookup_erase_ne he]
      exact h.lookup_sessionMap2 s hs

/-- What every run of once-opened sessions leaves behind. -/
theorem run_kept (hok : Along (step readsObject userId) OpenedOnce start events) :
    Recorded events (events.foldl (step readsObject userId) start) ∧
      (events.foldl (step readsObject userId) start).Filed userId ∧
      (events.foldl (step readsObject userId) start).Routed userId := by
  induction events using List.reverseRecOn with
  | nil => exact ⟨⟨nofun, nofun⟩, filed_start, routed_start⟩
  | append_singleton events event ih =>
    obtain ⟨hbefore, hlast, _⟩ := along_append.mp hok
    obtain ⟨hrec, hfiled, hrouted⟩ := ih hbefore
    rw [List.foldl_append]
    exact ⟨hrec.step hlast, hfiled.step event, hrouted.step event⟩

/-- In every state of every run: whatever the forward map names is a connected session of
that user whose close has not run; and whatever the text, it is sent on unchanged to at
most one session, one opened under the `dstId` of the text and not closed, with every
registry left as it is. -/
theorem im_delivery_safe (readsObject : String → Bool) (userId : Session → String)
    (events : List (ImEvent D)) (hok : Along (step readsObject userId) OpenedOnce start events) :
    (∀ u s, (events.foldl (step readsObject userId) start).server.sessionMap1.lookup u = some s →
      s ∈ (events.foldl (step readsObject userId) start).server.sockets ∧
        (events.foldl (step readsObject userId) start).server.sessionMap2.lookup s = some u ∧
        .onClose s ∉ events) ∧
    ∀ message : Text D,
      ((ImServer.onMessage readsObject message).run
        (events.foldl (step readsObject userId) start).server).out.length ≤ 1 ∧
      (∀ sent ∈ ((ImServer.onMessage readsObject message).run
          (events.foldl (step readsObject userId) start).server).out,
        sent.text = message ∧ ImServer.dstId message = some (userId sent.dst) ∧
          .onOpen sent.dst ∈ events ∧ .onClose sent.dst ∉ events) ∧
      ((ImServer.onMessage readsObject message).run
        (events.foldl (step readsObject userId) start).server).state =
          (events.foldl (step readsObject userId) start).server := by
  obtain ⟨hrec, hfiled, hrouted⟩ := run_kept hok
  generalize events.foldl (step readsObject userId) start = c at hrec hfiled hrouted
  refine ⟨fun u s hl => ?_, fun message => ⟨?_, fun sent hsent => ?_, ?_⟩⟩
  · obtain ⟨hopen, rfl⟩ := hrouted u s hl
    exact ⟨hfiled.mem_sockets s hopen, hfiled.lookup_sessionMap2 s hopen, (hrec.opened s hopen).2⟩
  · rcases ImServer.out_onMessage readsObject message c.server with hout | ⟨_, _, _, _, hout⟩
    all_goals simp [hout]
  · rcases ImServer.out_onMessage readsObject message c.server with hout | ⟨u, s, hu, hl, hout⟩
    · simp [hout] at hsent
    · rw [hout, List.mem_singleton] at hsent
      subst hsent
      obtain ⟨hopen, rfl⟩ := hrouted u s hl
      exact ⟨rfl, hu, hrec.opened s hopen⟩
  · exact ImServer.state_onMessage readsObject message c.server

/-- After the reconnect of Alice as `b`, before the close of `a`, her messages go to `b`. -/
theorem reconnected_delivery :
    Along (step (fun _ => false) fun _ => "alice") OpenedOnce start
      ([.onOpen ⟨"a"⟩, .onOpen ⟨"b"⟩] : List (ImEvent IntDouble)) ∧
    ∃ sent ∈ ((ImServer.onMessage (fun _ => false) (ImServer.memo "alice" : Text IntDouble)).run
        (([.onOpen ⟨"a"⟩, .onOpen ⟨"b"⟩] : List (ImEvent IntDouble)).foldl
          (step (fun _ => false) fun _ => "alice") start).server).out,
      sent.dst = ⟨"b"⟩ ∧ sent.text = ImServer.memo "alice" := by
  have hok : Along (step (fun _ => false) fun _ => "alice") OpenedOnce start
      ([.onOpen ⟨"a"⟩, .onOpen ⟨"b"⟩] : List (ImEvent IntDouble)) := ⟨rfl, rfl, trivial⟩
  obtain ⟨_, hmessage⟩ := im_delivery_safe (fun _ => false) (fun _ => "alice") _ hok
  have hsent : (⟨⟨"b"⟩, ImServer.memo "alice"⟩ : Sent IntDouble) ∈
      ((ImServer.onMessage (fun _ => false) (ImServer.memo "alice" : Text IntDouble)).run
        (([.onOpen ⟨"a"⟩, .onOpen ⟨"b"⟩] : List (ImEvent IntDouble)).foldl
          (step (fun _ => false) fun _ => "alice") start).server).out := by
    rw [ImServer.run_onMessage_of_wellFormed _ (ImServer.wellFormed_memo _)]
    exact List.mem_singleton_self _
  exact ⟨hok, _, hsent, rfl, ((hmessage _).2.1 _ hsent).1⟩

end ImContainer

end WebrtcCaller
