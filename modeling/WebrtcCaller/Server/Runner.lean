import WebrtcCaller.Core.Run
import WebrtcCaller.Server.Tasks

/-!
# Runs of the single-threaded runner

The container opens each session once, delivers its messages while it is open
and closes it once; the runner executes one task at a time. Each executed task
comes with the sessions on which `sendText` raises at that moment, so the
invariant below also covers runs with dead members.
-/

namespace WebrtcCaller

variable {D : Type}

/-- Where the container stands with a session. -/
inductive Phase where
  | unopened
  | opened
  | closed
  deriving DecidableEq, Repr

/-- The container callbacks, each one task of the runner. -/
inductive ServerEvent (D : Type) where
  | onOpen (session : Session) (userId : String)
  | onMessage (session : Session) (message : Text D)
  | onClose (session : Session)

namespace ServerEvent

/-- The session a callback is about. -/
def session : ServerEvent D → Session
  | .onOpen session _ => session
  | .onMessage session _ => session
  | .onClose session => session

/-- The task a callback submits. -/
def task [JavaDouble D] (fails : Session → Bool) : ServerEvent D → ServerTask D Unit
  | .onOpen session userId => SignallingServer.onOpen session userId
  | .onMessage session message => SignallingServer.onMessage fails message session
  | .onClose session => SignallingServer.onClose fails session

/-- The phase a callback finds its session in. -/
def before : ServerEvent D → Phase
  | .onOpen _ _ => .unopened
  | .onMessage _ _ => .opened
  | .onClose _ => .opened

/-- The phase a callback leaves its session in. -/
def after : ServerEvent D → Phase
  | .onOpen _ _ => .opened
  | .onMessage _ _ => .opened
  | .onClose _ => .closed

end ServerEvent

/-- One executed task, with the sessions whose `sendText` raises during it. -/
structure Job (D : Type) where
  event : ServerEvent D
  fails : Session → Bool

/-- The server with the container's record of every session. -/
structure Container where
  server : SignallingServer
  phase : Session → Phase

namespace Container

/-- Nothing opened yet. -/
def start : Container := ⟨.empty, fun _ => .unopened⟩

/-- The container only delivers a callback in the phase it belongs to. -/
def Allowed (c : Container) (job : Job D) : Prop :=
  c.phase job.event.session = job.event.before

section Step

variable [JavaDouble D]

/-- The outcome of the next task. -/
def outcome (c : Container) (job : Job D) : Outcome SignallingServer (Sent D) Raise Unit :=
  (job.event.task job.fails).run c.server

/-- The runner swallows a raise: only the state reached by the task matters. -/
def step (c : Container) (job : Job D) : Container :=
  ⟨(c.outcome job).state, Function.update c.phase job.event.session job.event.after⟩

end Step

end Container

namespace SignallingServer

/-- Registering adds the session at the end of its room. -/
theorem room_registered (server : SignallingServer) (name r : String) (socket : Session) :
    (server.registered name socket).room r =
      if r = name then server.room name ++ [socket] else server.room r := by
  simp [registered, room, bucket_insert]

/-- Unregistering takes one entry of the session out of its room. -/
theorem room_unregistered (server : SignallingServer) (name r : String) (session : Session) :
    (server.unregistered name session).room r =
      if r = name then (server.room name).erase session else server.room r := by
  simp [unregistered, room, bucket_insert]

/-- Registering files the session, whatever it was filed under before. -/
theorem lookup_roomList_registered (server : SignallingServer) (name id : String)
    (socket : Session) : (server.registered name socket).roomList.lookup id =
      if id = socket.id then some name else server.roomList.lookup id := by
  by_cases h : id = socket.id
  · subst h
    simp [registered]
  · simp [registered, AList.lookup_insert_ne h, h]

/-- An unregistered session is filed nowhere. -/
theorem lookup_roomList_unregistered (server : SignallingServer) (name id : String)
    (session : Session) : (server.unregistered name session).roomList.lookup id =
      if id = session.id then none else server.roomList.lookup id := by
  by_cases h : id = session.id
  · subst h
    simp [unregistered]
  · simp [unregistered, AList.lookup_erase_ne h, h]

/-- No room list is ever dropped. -/
theorem lookup_rooms_isSome_insert {server : SignallingServer} {name r : String}
    {xs : List Session} (h : (server.rooms.lookup r).isSome) :
    ((server.rooms.insert name xs).lookup r).isSome := by
  by_cases hr : r = name
  · subst hr
    simp
  · rwa [AList.lookup_insert_ne hr]

end SignallingServer

/-- What every run keeps, failing sends included. -/
structure Container.Filed (c : Container) : Prop where
  sockets_nodup : c.server.sockets.Nodup
  connected : ∀ s, c.phase s = .opened → s ∈ c.server.sockets
  opened : ∀ s, s ∈ c.server.sockets → c.phase s ≠ .unopened
  /-- Whoever is in a room is filed under some room, unless its close has run. -/
  filed : ∀ s r, s ∈ c.server.room r → c.phase s ≠ .closed →
    (c.server.roomList.lookup s.id).isSome
  /-- A room somebody is filed under exists. -/
  listed : ∀ id r, c.server.roomList.lookup id = some r → (c.server.rooms.lookup r).isSome

namespace Container

variable [JavaDouble D]

theorem filed_start : start.Filed := by
  refine ⟨List.nodup_nil, ?_, ?_, ?_, ?_⟩
  · intro s h
    simp [start] at h
  · intro s h
    simp [start, SignallingServer.empty] at h
  · intro s r h
    simp [start, SignallingServer.empty, SignallingServer.room] at h
  · intro id r h
    simp [start, SignallingServer.empty] at h

/-- Everything one task can do to the registries. -/
theorem step_cases (c : Container) (job : Job D) :
    (∃ session userId, job.event = .onOpen session userId ∧
      (c.step job).server = { c.server with
        sockets := if session ∈ c.server.sockets then c.server.sockets
          else c.server.sockets ++ [session]
        userIds := c.server.userIds.insert userId session }) ∨
    (∃ session message name, job.event = .onMessage session message ∧
      SignallingServer.joinTarget message = some name ∧
      ((c.server.others name session).any job.fails = false) ∧
      (c.step job).server = c.server.registered name session) ∨
    (∃ session, job.event = .onClose session ∧
      c.server.roomList.lookup session.id = none ∧
      (c.step job).server = { c.server with sockets := c.server.sockets.erase session }) ∨
    (∃ session name, job.event = .onClose session ∧
      c.server.roomList.lookup session.id = some name ∧
      ((c.server.others name session).any job.fails = false) ∧
      (c.step job).server = c.server.unregistered name session) ∨
    ((c.step job).server = c.server ∧
      ∀ session userId, job.event ≠ .onOpen session userId) := by
  obtain ⟨event, fails⟩ := job
  cases event with
  | onOpen session userId =>
    exact Or.inl ⟨session, userId, rfl, by
      simp [step, outcome, ServerEvent.task, SignallingServer.run_onOpen]⟩
  | onMessage session message =>
    rcases SignallingServer.onMessage_cases fails message session c.server with
      ⟨name, hj, hrun⟩ | ⟨_, hs, _⟩
    · by_cases ho : (c.server.others name session).any fails = true
      · refine Or.inr (Or.inr (Or.inr (Or.inr ⟨?_, by simp⟩)))
        simp only [step, outcome, ServerEvent.task, hrun, SignallingServer.joinOutcome, ho, if_true]
      · refine Or.inr (Or.inl ⟨session, message, name, rfl, hj, by simpa using ho, ?_⟩)
        simp only [step, outcome, ServerEvent.task, hrun, SignallingServer.joinOutcome, ho]
        cases fails session <;> rfl
    · exact Or.inr (Or.inr (Or.inr (Or.inr ⟨hs, by simp⟩)))
  | onClose session =>
    simp only [step, outcome, ServerEvent.task, SignallingServer.run_onClose,
      SignallingServer.closeOutcome]
    cases hr : c.server.roomList.lookup session.id with
    | none => exact Or.inr (Or.inr (Or.inl ⟨session, rfl, hr, rfl⟩))
    | some name =>
      cases hl : c.server.rooms.lookup name with
      | none => exact Or.inr (Or.inr (Or.inr (Or.inr ⟨by simp [hl], by simp⟩)))
      | some curRoom =>
        by_cases ho : (c.server.others name session).any fails = true
        · exact Or.inr (Or.inr (Or.inr (Or.inr ⟨by simp only [hl, ho, if_true], by simp⟩)))
        · exact Or.inr (Or.inr (Or.inr (Or.inl
            ⟨session, name, rfl, hr, by simpa using ho, by simp [hl, ho]⟩)))

/-- Everything one task can send: the two texts of a join, one relay, or the
notice of a close. -/
theorem mem_out_cases {c : Container} {job : Job D} {sent : Sent D}
    (h : sent ∈ (c.outcome job).out) :
    (∃ session message name, job.event = .onMessage session message ∧
      SignallingServer.joinTarget message = some name ∧
      ((∃ dst ∈ c.server.others name session,
          sent = SignallingServer.notice (SignallingServer.newPeer session) dst) ∨
        sent = SignallingServer.notice
          (SignallingServer.peers ((c.server.others name session).map (·.id)) session) session)) ∨
    (∃ session message, job.event = .onMessage session message ∧
      SignallingServer.joinTarget message = none ∧
      ∃ event ∈ SignallingServer.relays, ∃ fs dst,
        (dst ∈ c.server.sockets ∧ SignallingServer.addressee message = some dst.id) ∧
        sent = SignallingServer.notice
          (SignallingServer.relayed event.1 event.2 fs session) dst) ∨
    (∃ session name, job.event = .onClose session ∧
      c.server.roomList.lookup session.id = some name ∧
      ∃ dst ∈ c.server.others name session,
        sent = SignallingServer.notice (SignallingServer.removePeer session) dst) := by
  obtain ⟨event, fails⟩ := job
  cases event with
  | onOpen session userId =>
    simp [outcome, ServerEvent.task, SignallingServer.run_onOpen] at h
  | onMessage session message =>
    simp only [outcome, ServerEvent.task] at h
    rcases SignallingServer.onMessage_cases fails message session c.server with
      ⟨name, hj, hrun⟩ | ⟨hj, _, hout | ⟨event, hmem, fs, dst, hdst, hout⟩⟩
    · refine Or.inl ⟨session, message, name, rfl, hj, ?_⟩
      rw [hrun] at h
      simp only [SignallingServer.joinOutcome] at h
      split at h
      · obtain ⟨dst, hdst, rfl⟩ := List.mem_map.mp h
        exact Or.inl ⟨dst, List.takeWhile_subset _ hdst, rfl⟩
      · split at h
        · obtain ⟨dst, hdst, rfl⟩ := List.mem_map.mp h
          exact Or.inl ⟨dst, hdst, rfl⟩
        · rcases List.mem_append.mp h with h | h
          · obtain ⟨dst, hdst, rfl⟩ := List.mem_map.mp h
            exact Or.inl ⟨dst, hdst, rfl⟩
          · exact Or.inr (List.mem_singleton.mp h)
    · simp [hout] at h
    · rw [hout, List.mem_singleton] at h
      exact Or.inr (Or.inl ⟨session, message, rfl, hj, event, hmem, fs, dst, hdst, h⟩)
  | onClose session =>
    simp only [outcome, ServerEvent.task, SignallingServer.run_onClose,
      SignallingServer.closeOutcome] at h
    cases hr : c.server.roomList.lookup session.id with
    | none => simp [hr] at h
    | some name =>
      cases hl : c.server.rooms.lookup name with
      | none => simp [hr, hl] at h
      | some curRoom =>
        refine Or.inr (Or.inr ⟨session, name, rfl, hr, ?_⟩)
        simp only [hr, hl] at h
        split at h
        · obtain ⟨dst, hdst, rfl⟩ := List.mem_map.mp h
          exact ⟨dst, List.takeWhile_subset _ hdst, rfl⟩
        · obtain ⟨dst, hdst, rfl⟩ := List.mem_map.mp h
          exact ⟨dst, hdst, rfl⟩

/-- Another session keeps its phase. -/
theorem phase_step_of_ne {c : Container} {job : Job D} {s : Session} (h : s ≠ job.event.session) :
    (c.step job).phase s = c.phase s := by
  simp [step, h]

theorem phase_step_self (c : Container) (job : Job D) :
    (c.step job).phase job.event.session = job.event.after := by
  simp [step]

/-- An opened session stays as it is or is closed; it never becomes unopened again. -/
theorem phase_step_ne_unopened (c : Container) (job : Job D) {s : Session}
    (h : c.phase s ≠ .unopened) : (c.step job).phase s ≠ .unopened := by
  by_cases hs : s = job.event.session
  · subst hs
    rw [phase_step_self]
    cases job.event <;> simp [ServerEvent.after]
  · rwa [phase_step_of_ne hs]

/-- A closed session stays closed. -/
theorem phase_step_closed {c : Container} {job : Job D} (hok : c.Allowed job) {s : Session}
    (h : c.phase s = .closed) : (c.step job).phase s = .closed := by
  by_cases hs : s = job.event.session
  · subst hs
    rw [Allowed, h] at hok
    cases he : job.event <;> simp [he, ServerEvent.before] at hok
  · rwa [phase_step_of_ne hs]

/-- A session opened after the step was opened before it, or by it. -/
theorem opened_of_step {c : Container} {job : Job D} (hok : c.Allowed job) {s : Session}
    (h : (c.step job).phase s = .opened) :
    (c.phase s = .opened ∧ job.event ≠ .onClose s) ∨
      ∃ userId, job.event = .onOpen s userId := by
  by_cases hs : s = job.event.session
  · subst hs
    rw [phase_step_self] at h
    cases he : job.event with
    | onOpen session userId => exact Or.inr ⟨userId, rfl⟩
    | onMessage session message =>
      simp only [Allowed, he, ServerEvent.before] at hok
      exact Or.inl ⟨hok, by simp⟩
    | onClose session => simp [he, ServerEvent.after] at h
  · rw [phase_step_of_ne hs] at h
    refine Or.inl ⟨h, fun he => hs ?_⟩
    rw [he, ServerEvent.session]

/-- The sockets after a step: one more after an open, maybe one fewer after a close. -/
theorem sockets_step (c : Container) (job : Job D) :
    (∃ session userId, job.event = .onOpen session userId ∧
      (c.step job).server.sockets = if session ∈ c.server.sockets then c.server.sockets
        else c.server.sockets ++ [session]) ∨
    (∃ session, job.event = .onClose session ∧
      (c.step job).server.sockets = c.server.sockets.erase session) ∨
    ((c.step job).server.sockets = c.server.sockets ∧
      ∀ session userId, job.event ≠ .onOpen session userId) := by
  rcases c.step_cases job with ⟨session, userId, he, hs⟩ | ⟨session, message, name, he, _, _, hs⟩ |
    ⟨session, he, _, hs⟩ | ⟨session, name, he, _, _, hs⟩ | ⟨hs, hne⟩
  · exact Or.inl ⟨session, userId, he, by rw [hs]⟩
  · exact Or.inr (Or.inr ⟨by rw [hs]; rfl, by simp [he]⟩)
  · exact Or.inr (Or.inl ⟨session, he, by rw [hs]⟩)
  · exact Or.inr (Or.inl ⟨session, he, by rw [hs]; rfl⟩)
  · exact Or.inr (Or.inr ⟨by rw [hs], hne⟩)

section Filed

variable {c : Container} {job : Job D}

/-- A session is connected once. -/
theorem Filed.sockets_nodup_step (h : c.Filed) : (c.step job).server.sockets.Nodup := by
  rcases c.sockets_step job with ⟨session, userId, _, hs⟩ | ⟨session, _, hs⟩ | ⟨hs, _⟩
  · rw [hs]
    split
    · exact h.sockets_nodup
    · rename_i hnew
      exact List.nodup_append.mpr ⟨h.sockets_nodup, List.nodup_singleton _, by grind⟩
  · rw [hs]
    exact h.sockets_nodup.erase session
  · rw [hs]
    exact h.sockets_nodup

/-- Every open session is connected. -/
theorem Filed.connected_step (h : c.Filed) (hok : c.Allowed job) (s : Session)
    (hopen : (c.step job).phase s = .opened) : s ∈ (c.step job).server.sockets := by
  rcases opened_of_step hok hopen with ⟨hold, hclose⟩ | ⟨userId, he⟩
  · have hmem := h.connected s hold
    rcases c.sockets_step job with ⟨session, userId, _, hs⟩ | ⟨session, he, hs⟩ | ⟨hs, _⟩
    · rw [hs]
      split
      · exact hmem
      · exact List.mem_append_left _ hmem
    · rw [hs]
      have hne : s ≠ session := fun heq => hclose (heq ▸ he)
      exact (List.mem_erase_of_ne hne).mpr hmem
    · rwa [hs]
  · rcases c.sockets_step job with ⟨session, _, he', hs⟩ | ⟨session, he', _⟩ | ⟨_, hne⟩
    · rw [he] at he'
      obtain ⟨rfl, _⟩ := ServerEvent.onOpen.inj he'
      rw [hs]
      split
      · assumption
      · simp
    · simp [he] at he'
    · exact absurd he (hne _ _)

/-- Only sessions that have been opened are connected. -/
theorem Filed.opened_step (h : c.Filed) (s : Session)
    (hmem : s ∈ (c.step job).server.sockets) : (c.step job).phase s ≠ .unopened := by
  rcases c.sockets_step job with ⟨session, userId, he, hs⟩ | ⟨session, _, hs⟩ | ⟨hs, _⟩
  · rw [hs] at hmem
    by_cases hs' : s = job.event.session
    · subst hs'
      rw [phase_step_self, he]
      simp [ServerEvent.after]
    · have hold : s ∈ c.server.sockets := by
        simp only [he, ServerEvent.session] at hs'
        split at hmem
        · exact hmem
        · simpa [hs'] using hmem
      exact c.phase_step_ne_unopened job (h.opened s hold)
  · rw [hs] at hmem
    exact c.phase_step_ne_unopened job (h.opened s (List.mem_of_mem_erase hmem))
  · rw [hs] at hmem
    exact c.phase_step_ne_unopened job (h.opened s hmem)

/-- A join files whoever it adds to a room; a close takes the filing away of its own
session only. -/
theorem Filed.filed_step (h : c.Filed) (hok : c.Allowed job) (s : Session) (r : String)
    (hmem : s ∈ (c.step job).server.room r) (hclosed : (c.step job).phase s ≠ .closed) :
    ((c.step job).server.roomList.lookup s.id).isSome := by
  have hold : c.phase s ≠ .closed := fun hc => hclosed (phase_step_closed hok hc)
  rcases c.step_cases job with ⟨_, _, _, hs⟩ | ⟨session, message, name, _, _, _, hs⟩ |
    ⟨_, _, _, hs⟩ | ⟨session, name, he, _, _, hs⟩ | ⟨hs, _⟩
  · rw [hs] at hmem ⊢
    exact h.filed s r hmem hold
  · rw [hs, SignallingServer.room_registered] at hmem
    rw [hs, SignallingServer.lookup_roomList_registered]
    split
    · rfl
    · rename_i hne
      refine h.filed s r ?_ hold
      split at hmem
      · rename_i hr
        subst hr
        simpa [show s ≠ session from fun heq => hne (heq ▸ rfl)] using hmem
      · exact hmem
  · rw [hs] at hmem ⊢
    exact h.filed s r hmem hold
  · have hne : s ≠ session := by
      rintro rfl
      apply hclosed
      have hself := c.phase_step_self job
      simpa [he, ServerEvent.session, ServerEvent.after] using hself
    rw [hs, SignallingServer.room_unregistered] at hmem
    rw [hs, SignallingServer.lookup_roomList_unregistered,
      if_neg fun heq => hne (Session.ext heq)]
    refine h.filed s r ?_ hold
    split at hmem
    · rename_i hr
      subst hr
      exact List.mem_of_mem_erase hmem
    · exact hmem
  · rw [hs] at hmem ⊢
    exact h.filed s r hmem hold

/-- A room under which a session is filed has a list. -/
theorem Filed.listed_step (h : c.Filed) (id r : String)
    (hl : (c.step job).server.roomList.lookup id = some r) :
    ((c.step job).server.rooms.lookup r).isSome := by
  rcases c.step_cases job with ⟨_, _, _, hs⟩ | ⟨session, message, name, _, _, _, hs⟩ |
    ⟨_, _, _, hs⟩ | ⟨session, name, _, _, _, hs⟩ | ⟨hs, _⟩
  · rw [hs] at hl ⊢
    exact h.listed id r hl
  · rw [hs, SignallingServer.lookup_roomList_registered] at hl
    rw [hs]
    split at hl
    · obtain rfl := Option.some.inj hl
      simp [SignallingServer.registered]
    · exact SignallingServer.lookup_rooms_isSome_insert (h.listed id r hl)
  · rw [hs] at hl ⊢
    exact h.listed id r hl
  · rw [hs, SignallingServer.lookup_roomList_unregistered] at hl
    rw [hs]
    split at hl
    · cases hl
    · exact SignallingServer.lookup_rooms_isSome_insert (h.listed id r hl)
  · rw [hs] at hl ⊢
    exact h.listed id r hl

/-- One task keeps the registries filed. -/
theorem Filed.step (h : c.Filed) (job : Job D) (hok : c.Allowed job) : (c.step job).Filed where
  sockets_nodup := h.sockets_nodup_step
  connected := h.connected_step hok
  opened := h.opened_step
  filed := h.filed_step hok
  listed := h.listed_step

end Filed

end Container

end WebrtcCaller
