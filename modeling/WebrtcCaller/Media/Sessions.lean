import Mathlib
import WebrtcCaller.Core.Run
import WebrtcCaller.Media.Capturer

/-!
# Camera sessions over a run

The capturer together with the camera thread and the camera: calls of the application, tasks of the
camera thread, results of creations, events of sessions and timeouts, in any order. A creation that
has begun ends in one session or one failure.
-/

namespace WebrtcCaller.Media

open CameraCapturer

/-- A capturer with the account of its sessions and of what it has told. -/
structure Capture where
  capturer : CameraCapturer
  /-- The creations that have begun and not ended. -/
  creating : List CaptureFormat
  /-- The sessions so far, in order. -/
  opened : List CameraSession
  /-- The sessions that have been stopped, in order. -/
  stopped : List CameraSession
  /-- The handlers of all switches asked for. -/
  requested : List Nat
  /-- Everything the capturer has told, in order. -/
  told : List CaptureEffect

/-- The calls of the application, the callbacks of the camera, and the turns of the threads. -/
inductive CaptureEvent where
  | startCapture (width height framerate : Int32)
  | stopCapture
  | changeCaptureFormat (width height framerate : Int32)
  | switchCamera (switchEventsHandler : Option Nat)
  /-- The camera thread takes its next task. -/
  | next (deviceNames : List String)
  /-- A delayed task becomes due. -/
  | due
  | onDone (deviceNames : List String)
  | onFailure (failureType : FailureType) (error : String)
  | onCameraOpening
  | onCameraError (session : CameraSession) (error : String)
  | onCameraDisconnected (session : CameraSession)
  | onCameraClosed (session : CameraSession)
  | onFrameCaptured (session : CameraSession)
  | openCameraTimeout

namespace Capture

/-- After `initialize`. -/
def start (cameraName : String) : Capture := ⟨.init cameraName, [], [], [], [], []⟩

/-- The task without its place in the queue. -/
def taken : CaptureTask Unit :=
  Task.modify fun c => { c with cameraThreadHandler := c.cameraThreadHandler.tail }

/-- The session a creation makes. -/
def made (c : Capture) : Option CameraSession := c.creating.head?.map fun f => ⟨c.opened.length, f⟩

variable (isFrontFacing : String → Bool)

/-- What an event makes the capturer do. -/
def task (c : Capture) : CaptureEvent → CaptureTask Unit
  | .startCapture width height framerate => startCapture width height framerate
  | .stopCapture => stopCapture
  | .changeCaptureFormat width height framerate => changeCaptureFormat width height framerate
  | .switchCamera switchEventsHandler => switchCamera switchEventsHandler
  | .next deviceNames => do
    taken
    match c.capturer.cameraThreadHandler.head? with
    | some (.switch switchEventsHandler) => switchCameraInternal deviceNames switchEventsHandler
    | _ => pure ()
  | .due => Task.modify fun c =>
    { c with
      cameraThreadHandler := c.cameraThreadHandler ++ c.delayed.take 1
      delayed := c.delayed.tail }
  | .onDone deviceNames => Task.whenSome (fun _ => c.made) (onDone isFrontFacing deviceNames)
  | .onFailure failureType error => onFailure failureType error
  | .onCameraOpening => onCameraOpening
  | .onCameraError session error => onCameraError session error
  | .onCameraDisconnected session => onCameraDisconnected session
  | .onCameraClosed session => onCameraClosed session
  | .onFrameCaptured session => onFrameCaptured session
  | .openCameraTimeout => do
    Task.modify fun c => { c with uiThreadHandler := c.uiThreadHandler - 1 }
    Task.emit (.onCameraError "Camera failed to start within timeout.")

/-- What becomes of creations, sessions and switches. -/
def book (c : Capture) : CaptureEvent → Capture
  | .switchCamera switchEventsHandler =>
    { c with requested := c.requested ++ switchEventsHandler.toList }
  | .next _ =>
    match c.capturer.cameraThreadHandler.head? with
    | some .create => { c with creating := c.creating ++ [c.capturer.format] }
    | some (.stop session) => { c with stopped := c.stopped ++ [session] }
    | _ => c
  | .onDone _ => { c with creating := c.creating.tail, opened := c.opened ++ c.made.toList }
  | .onFailure _ _ => { c with creating := c.creating.tail }
  | _ => c

/-- The capturer after one event, with the account of it. -/
def step (c : Capture) (e : CaptureEvent) : Capture :=
  { c.book e with
    capturer := ((c.task isFrontFacing e).run c.capturer).state
    told := c.told ++ ((c.task isFrontFacing e).run c.capturer).out }

/-- A creation ends once, a timeout runs when it is posted, and a thread of the application goes on
in `stopCapture` when no session is opening. -/
def Allowed (c : Capture) : CaptureEvent → Prop
  | .stopCapture => c.capturer.sessionOpening = false
  | .changeCaptureFormat _ _ _ => c.capturer.sessionOpening = false
  | .onDone _ => c.creating ≠ []
  | .onFailure _ _ => c.creating ≠ []
  | .openCameraTimeout => 0 < c.capturer.uiThreadHandler
  | _ => True

/-! ### The order of things -/

/-- The session a task stops. -/
def stopOf : CameraTask → Option CameraSession
  | .stop session => some session
  | _ => none

/-- The sessions whose stop is posted. -/
def stops (tasks : List CameraTask) : List CameraSession := tasks.filterMap stopOf

section Stops

variable (tasks tasks' : List CameraTask)

@[simp] theorem stops_nil : stops [] = [] := rfl

@[simp] theorem stops_create : stops (.create :: tasks) = stops tasks := rfl

@[simp] theorem stops_stop (s : CameraSession) : stops (.stop s :: tasks) = s :: stops tasks := rfl

@[simp] theorem stops_switch (h : Option Nat) : stops (.switch h :: tasks) = stops tasks := rfl

@[simp] theorem stops_append : stops (tasks ++ tasks') = stops tasks ++ stops tasks' :=
  List.filterMap_append ..

end Stops

/-- Where the creation of the session that is opening stands: posted behind the stops, delayed, or
begun. -/
inductive Opening (tasks delayed : List CameraTask) (format : CaptureFormat)
    (creating : List CaptureFormat) : Prop
  | posted (pre post : List CameraTask) (htasks : tasks = pre ++ .create :: post)
      (hpre : .create ∉ pre) (hpost : .create ∉ post) (hstops : (stops pre).length ≤ 1)
      (hlast : stops post = []) (hdelayed : delayed = []) (hcreating : creating = [])
  | delayed (htasks : .create ∉ tasks) (hstops : stops tasks = []) (hdelayed : delayed = [.create])
      (hcreating : creating = [])
  | begun (htasks : .create ∉ tasks) (hstops : stops tasks = []) (hdelayed : delayed = [])
      (hcreating : creating = [format])

/-- What holds while no session is opening. -/
structure Resting (c : CameraCapturer) (creating : List CaptureFormat) : Prop where
  tasks : .create ∉ c.cameraThreadHandler
  delayed : c.delayed = []
  creating : creating = []
  one : (stops c.cameraThreadHandler ++ c.currentSession.toList).length ≤ 1

/-- At most one session is not stopped, and a creation begins behind its stop. -/
structure Orderly (c : CameraCapturer) (creating : List CaptureFormat)
    (opened stopped : List CameraSession) : Prop where
  ledger : opened = stopped ++ (stops c.cameraThreadHandler ++ c.currentSession.toList)
  statistics : c.cameraStatistics = c.currentSession.isSome
  format : ∀ s, c.currentSession = some s → s.format = c.format
  current : c.sessionOpening = true → c.currentSession = none
  opening : c.sessionOpening = true → Opening c.cameraThreadHandler c.delayed c.format creating
  resting : c.sessionOpening = false → Resting c creating
  switching : c.switchState ≠ .idle → c.sessionOpening = true
  timeout : 0 < c.uiThreadHandler → c.uiThreadHandler = 1 ∧ c.sessionOpening = true

namespace Orderly

variable {c : CameraCapturer} {creating : List CaptureFormat} {opened stopped : List CameraSession}
  (h : Orderly c creating opened stopped)

include h

/-- While no session is opening no timeout is posted. -/
theorem timeout_zero (hopen : c.sessionOpening = false) : c.uiThreadHandler = 0 := by
  by_contra hne
  have hopening := (h.timeout (Nat.pos_of_ne_zero hne)).2
  rw [hopen] at hopening
  cases hopening

/-- A session is running only while none is opening. -/
theorem not_opening {s : CameraSession} (hs : c.currentSession = some s) :
    c.sessionOpening = false := by
  cases hopen : c.sessionOpening with
  | false => rfl
  | true =>
    rw [h.current hopen] at hs
    cases hs

/-- A creation has begun only for the session that is opening. -/
theorem begun (hcreating : creating ≠ []) : c.sessionOpening = true ∧
    .create ∉ c.cameraThreadHandler ∧ stops c.cameraThreadHandler = [] ∧ c.delayed = [] ∧
    creating = [c.format] := by
  cases hopen : c.sessionOpening with
  | false => exact absurd (h.resting hopen).creating hcreating
  | true =>
    cases h.opening hopen with
    | posted pre post _ _ _ _ _ _ hc => exact absurd hc hcreating
    | delayed _ _ _ hc => exact absurd hc hcreating
    | begun htasks hstops hdelayed hc => exact ⟨rfl, htasks, hstops, hdelayed, hc⟩

/-! What each part of a task keeps in order. -/

/-- The running session is stopped behind everything that is posted. -/
theorem stop {s : CameraSession} (hs : c.currentSession = some s) :
    Orderly { c with
      cameraThreadHandler := c.cameraThreadHandler ++ [.stop s]
      currentSession := none
      cameraStatistics := false } creating opened stopped where
  ledger := by simp [h.ledger, hs]
  statistics := rfl
  format := fun s hs => by cases hs
  current := fun _ => rfl
  opening := fun hopen => by
    rw [h.current hopen] at hs
    cases hs
  resting := fun hopen => by
    obtain ⟨htasks, hdelayed, hcreating, hone⟩ := h.resting hopen
    refine ⟨by simpa using htasks, hdelayed, hcreating, ?_⟩
    simpa [hs] using hone
  switching := h.switching
  timeout := h.timeout

/-- A session may open when none is opening and none is running. -/
theorem start (hopen : c.sessionOpening = false) (hcur : c.currentSession = none)
    (format : CaptureFormat) (attempts : Int) (switchState : SwitchState) (handler : Option Nat) :
    Orderly { c with
      cameraThreadHandler := c.cameraThreadHandler ++ [.create]
      uiThreadHandler := c.uiThreadHandler + 1
      format := format
      sessionOpening := true
      openAttemptsRemaining := attempts
      switchState := switchState
      switchEventsHandler := handler } creating opened stopped where
  ledger := by simp [h.ledger]
  statistics := h.statistics
  format := fun s hs => by
    rw [hcur] at hs
    cases hs
  current := fun _ => hcur
  opening := fun _ => by
    obtain ⟨htasks, hdelayed, hcreating, hone⟩ := h.resting hopen
    rw [hcur, Option.toList_none, List.append_nil] at hone
    exact .posted _ [] rfl htasks List.not_mem_nil hone rfl hdelayed hcreating
  resting := fun hno => by cases hno
  switching := fun _ => rfl
  timeout := fun _ => ⟨by rw [h.timeout_zero hopen], rfl⟩

/-- A switch may wait for the session that is opening. -/
theorem wait (hopen : c.sessionOpening = true) (handler : Option Nat) :
    Orderly { c with switchState := .pending, switchEventsHandler := handler }
      creating opened stopped where
  ledger := h.ledger
  statistics := h.statistics
  format := h.format
  current := h.current
  opening := h.opening
  resting := fun hno => by
    rw [hopen] at hno
    cases hno
  switching := fun _ => hopen
  timeout := h.timeout

/-- A posted switch stops no session. -/
theorem post (handler : Option Nat) :
    Orderly { c with cameraThreadHandler := c.cameraThreadHandler ++ [.switch handler] }
      creating opened stopped where
  ledger := by simp [h.ledger]
  statistics := h.statistics
  format := h.format
  current := h.current
  opening := fun hopen => by
    cases h.opening hopen with
    | posted pre post htasks hpre hpost hstops hlast hdelayed hcreating =>
      refine .posted pre (post ++ [.switch handler]) ?_ hpre ?_ hstops ?_ hdelayed hcreating
      · simp [htasks]
      · simpa using hpost
      · simp [hlast]
    | delayed htasks hstops hdelayed hcreating =>
      exact .delayed (by simpa using htasks) (by simp [hstops]) hdelayed hcreating
    | begun htasks hstops hdelayed hcreating =>
      exact .begun (by simpa using htasks) (by simp [hstops]) hdelayed hcreating
  resting := fun hopen => by
    obtain ⟨htasks, hdelayed, hcreating, hone⟩ := h.resting hopen
    exact ⟨by simpa using htasks, hdelayed, hcreating, by simpa using hone⟩
  switching := h.switching
  timeout := h.timeout

/-- A switch may be taken. -/
theorem take_switch {handler : Option Nat} {tasks : List CameraTask}
    (htake : c.cameraThreadHandler = .switch handler :: tasks) :
    Orderly { c with cameraThreadHandler := tasks } creating opened stopped where
  ledger := by simp [h.ledger, htake]
  statistics := h.statistics
  format := h.format
  current := h.current
  opening := fun hopen => by
    have hopening := h.opening hopen
    rw [htake] at hopening
    cases hopening with
    | posted pre post htasks hpre hpost hstops hlast hdelayed hcreating =>
      -- the creation stands behind the switch
      cases pre with
      | nil => cases htasks
      | cons t pre =>
        obtain ⟨rfl, rfl⟩ := List.cons.inj htasks
        exact .posted pre post rfl (List.not_mem_of_not_mem_cons hpre) hpost hstops hlast hdelayed
          hcreating
    | delayed htasks hstops hdelayed hcreating =>
      exact .delayed (List.not_mem_of_not_mem_cons htasks) hstops hdelayed hcreating
    | begun htasks hstops hdelayed hcreating =>
      exact .begun (List.not_mem_of_not_mem_cons htasks) hstops hdelayed hcreating
  resting := fun hopen => by
    obtain ⟨htasks, hdelayed, hcreating, hone⟩ := h.resting hopen
    rw [htake] at htasks hone
    exact ⟨List.not_mem_of_not_mem_cons htasks, hdelayed, hcreating, hone⟩
  switching := h.switching
  timeout := h.timeout

/-- Taking a stop stops the oldest session that is not stopped. -/
theorem take_stop {s : CameraSession} {tasks : List CameraTask}
    (htake : c.cameraThreadHandler = .stop s :: tasks) :
    Orderly { c with cameraThreadHandler := tasks } creating opened (stopped ++ [s]) where
  ledger := by simp [h.ledger, htake]
  statistics := h.statistics
  format := h.format
  current := h.current
  opening := fun hopen => by
    have hopening := h.opening hopen
    rw [htake] at hopening
    cases hopening with
    | posted pre post htasks hpre hpost hstops hlast hdelayed hcreating =>
      cases pre with
      | nil => cases htasks
      | cons t pre =>
        obtain ⟨rfl, rfl⟩ := List.cons.inj htasks
        rw [stops_stop, List.length_cons] at hstops
        exact .posted pre post rfl (List.not_mem_of_not_mem_cons hpre) hpost (by omega) hlast
          hdelayed hcreating
    | delayed _ hstops => cases hstops
    | begun _ hstops => cases hstops
  resting := fun hopen => by
    obtain ⟨htasks, hdelayed, hcreating, hone⟩ := h.resting hopen
    rw [htake] at htasks hone
    rw [stops_stop, List.cons_append, List.length_cons] at hone
    exact ⟨List.not_mem_of_not_mem_cons htasks, hdelayed, hcreating, (Nat.le_succ _).trans hone⟩
  switching := h.switching
  timeout := h.timeout

/-- A creation begins when every session is stopped. -/
theorem take_create {tasks : List CameraTask} (htake : c.cameraThreadHandler = .create :: tasks) :
    Orderly { c with cameraThreadHandler := tasks } (creating ++ [c.format]) opened stopped where
  ledger := by simp [h.ledger, htake]
  statistics := h.statistics
  format := h.format
  current := h.current
  opening := fun hopen => by
    have hopening := h.opening hopen
    rw [htake] at hopening
    cases hopening with
    | posted pre post htasks hpre hpost hstops hlast hdelayed hcreating =>
      cases pre with
      | nil =>
        obtain ⟨-, rfl⟩ := List.cons.inj htasks
        exact .begun hpost hlast hdelayed (by rw [hcreating]; rfl)
      | cons t pre =>
        obtain ⟨rfl, -⟩ := List.cons.inj htasks
        exact absurd List.mem_cons_self hpre
    | delayed htasks => exact absurd List.mem_cons_self htasks
    | begun htasks => exact absurd List.mem_cons_self htasks
  resting := fun hopen => by
    have htasks := (h.resting hopen).tasks
    rw [htake] at htasks
    exact absurd List.mem_cons_self htasks
  switching := h.switching
  timeout := h.timeout

/-- At most one creation is delayed. -/
theorem delayed_cases : c.delayed = [] ∨ c.delayed = [.create] := by
  cases hopen : c.sessionOpening with
  | false => exact .inl (h.resting hopen).delayed
  | true =>
    cases h.opening hopen with
    | posted _ _ _ _ _ _ _ hdelayed => exact .inl hdelayed
    | begun _ _ hdelayed => exact .inl hdelayed
    | delayed _ _ hdelayed => exact .inr hdelayed

/-- The delayed creation may come due. -/
theorem due : Orderly { c with
    cameraThreadHandler := c.cameraThreadHandler ++ c.delayed.take 1
    delayed := c.delayed.tail } creating opened stopped := by
  by_cases hnone : c.delayed = []
  · rw [hnone, List.take_nil, List.append_nil, List.tail_nil, ← hnone]
    exact h
  · have hdelayed := h.delayed_cases.resolve_left hnone
    refine ⟨?_, h.statistics, h.format, h.current, fun hopen => ?_, fun hopen => ?_, h.switching,
      h.timeout⟩
    · simp [h.ledger, hdelayed]
    · rw [hdelayed]
      cases h.opening hopen with
      | posted _ _ _ _ _ _ _ hnot => exact absurd hnot hnone
      | begun _ _ hnot => exact absurd hnot hnone
      | delayed htasks hstops _ hcreating =>
        exact .posted _ [] rfl htasks List.not_mem_nil (by simp [hstops]) rfl rfl hcreating
    · exact absurd (h.resting hopen).delayed hnone

/-- The creation that has begun opens the session. -/
theorem done (hcreating : creating ≠ []) (number : Nat) (observed : Bool) (handler : Option Nat) :
    Orderly { c with
      uiThreadHandler := 0
      sessionOpening := false
      currentSession := some ⟨number, c.format⟩
      switchState := .idle
      switchEventsHandler := handler
      cameraStatistics := true
      firstFrameObserved := observed } [] (opened ++ [⟨number, c.format⟩]) stopped := by
  obtain ⟨hopen, htasks, hstops, hdelayed, -⟩ := h.begun hcreating
  refine ⟨?_, rfl, ?_, fun hno => absurd hno Bool.false_ne_true,
    fun hno => absurd hno Bool.false_ne_true, fun _ => ?_, fun hno => absurd rfl hno,
    fun hno => absurd hno (Nat.lt_irrefl 0)⟩
  · simp [h.ledger, hstops, h.current hopen]
  · intro s hs
    obtain rfl := Option.some.inj hs
    rfl
  · exact ⟨htasks, hdelayed, rfl, by simp [hstops]⟩

/-- The last try may fail. -/
theorem fail (hcreating : creating ≠ []) (attempts : Int) (handler : Option Nat) :
    Orderly { c with
      uiThreadHandler := 0
      sessionOpening := false
      openAttemptsRemaining := attempts
      switchState := .idle
      switchEventsHandler := handler } [] opened stopped := by
  obtain ⟨hopen, htasks, hstops, hdelayed, -⟩ := h.begun hcreating
  refine ⟨h.ledger, h.statistics, h.format, fun hno => absurd hno Bool.false_ne_true,
    fun hno => absurd hno Bool.false_ne_true, fun _ => ?_, fun hno => absurd rfl hno,
    fun hno => absurd hno (Nat.lt_irrefl 0)⟩
  exact ⟨htasks, hdelayed, rfl, by simp [hstops, h.current hopen]⟩

/-- A try may fail and be made again later. -/
theorem retry (hcreating : creating ≠ []) (attempts : Int) :
    Orderly { c with
      delayed := c.delayed ++ [.create]
      uiThreadHandler := 1
      openAttemptsRemaining := attempts } [] opened stopped := by
  obtain ⟨hopen, htasks, hstops, hdelayed, -⟩ := h.begun hcreating
  refine ⟨h.ledger, h.statistics, h.format, h.current, fun _ => ?_, fun hno => ?_, h.switching,
    fun _ => ⟨rfl, hopen⟩⟩
  · exact .delayed htasks hstops (by rw [hdelayed]; rfl) rfl
  · rw [hopen] at hno
    cases hno

/-- The first frame is of no matter here. -/
theorem observe (observed : Bool) :
    Orderly { c with firstFrameObserved := observed } creating opened stopped :=
  ⟨h.ledger, h.statistics, h.format, h.current, h.opening,
    fun hopen => ⟨(h.resting hopen).tasks, (h.resting hopen).delayed, (h.resting hopen).creating,
      (h.resting hopen).one⟩, h.switching, h.timeout⟩

/-- The timeout may run out. -/
theorem timedOut : Orderly { c with uiThreadHandler := c.uiThreadHandler - 1 }
    creating opened stopped := by
  refine ⟨h.ledger, h.statistics, h.format, h.current, h.opening,
    fun hopen => ⟨(h.resting hopen).tasks, (h.resting hopen).delayed, (h.resting hopen).creating,
      (h.resting hopen).one⟩, h.switching, fun hpos => ?_⟩
  simp only at hpos
  have := h.timeout (by omega)
  omega

end Orderly

theorem orderly_start (cameraName : String) : Orderly (.init cameraName) [] [] [] where
  ledger := rfl
  statistics := rfl
  format := fun s hs => by cases hs
  current := fun h => by cases h
  opening := fun h => by cases h
  resting := fun _ => ⟨List.not_mem_nil, rfl, rfl, Nat.zero_le _⟩
  switching := fun h => absurd rfl h
  timeout := fun h => absurd h (Nat.lt_irrefl 0)

end Capture

end WebrtcCaller.Media
