import Mathlib
import WebrtcCaller.Media.Sessions

/-!
# Runs of the camera capturer

Every task of the capturer comes to its end, keeps the sessions in order and answers the switches
that are waiting, each once; so does every run.
-/

namespace WebrtcCaller.Media

open CameraCapturer

namespace Capture

/-! ### The answers to switches -/

/-- The handler of a posted switch. -/
def switchOf : CameraTask → Option Nat
  | .switch switchEventsHandler => switchEventsHandler
  | _ => none

/-- The handlers whose switch is posted. -/
def switches (tasks : List CameraTask) : List Nat := tasks.filterMap switchOf

/-- The handler whose switch is under way. -/
def underWay (c : CameraCapturer) : List Nat :=
  if c.switchState = .idle then [] else c.switchEventsHandler.toList

/-- The handlers that wait for an answer: of the posted switches, and of the one under way. -/
def pending (c : CameraCapturer) : List Nat := switches c.cameraThreadHandler ++ underWay c

/-- The handler that is answered. -/
def answerOf : CaptureEffect → Option Nat
  | .onCameraSwitchDone handler _ => some handler
  | .onCameraSwitchError handler _ => some handler
  | _ => none

/-- The handlers that have been answered, in order. -/
def answers (told : List CaptureEffect) : List Nat := told.filterMap answerOf

@[simp] theorem switches_cons (t : CameraTask) (tasks : List CameraTask) :
    switches (t :: tasks) = (switchOf t).toList ++ switches tasks := by
  rw [switches, List.filterMap_cons]
  cases switchOf t <;> rfl

@[simp] theorem switches_append (tasks tasks' : List CameraTask) :
    switches (tasks ++ tasks') = switches tasks ++ switches tasks' :=
  List.filterMap_append ..

@[simp] theorem answers_cons (e : CaptureEffect) (told : List CaptureEffect) :
    answers (e :: told) = (answerOf e).toList ++ answers told := by
  rw [answers, List.filterMap_cons]
  cases answerOf e <;> rfl

@[simp] theorem answers_append (told told' : List CaptureEffect) :
    answers (told ++ told') = answers told ++ answers told' :=
  List.filterMap_append ..

@[simp] theorem switches_nil : switches [] = [] := rfl

@[simp] theorem answers_nil : answers [] = [] := rfl

/-- A task that comes to its end, in a state where `Q` holds, and answers no handler but those that
wait, each once. -/
structure Fine (o : Outcome CameraCapturer CaptureEffect Stuck Unit) (waiting : List Nat)
    (Q : CameraCapturer → Prop) : Prop where
  returns : o.value = .ok ()
  state : Q o.state
  answered : (answers o.out ++ pending o.state).Perm waiting

/-- Two tasks one after the other. -/
theorem Fine.bind {t t' : CaptureTask Unit} {c : CameraCapturer} {waiting : List Nat}
    {Q R : CameraCapturer → Prop} (h : Fine (t.run c) waiting Q)
    (h' : ∀ c', Q c' → Fine (t'.run c') (pending c') R) :
    Fine ((t >>= fun _ => t').run c) waiting R := by
  obtain ⟨hreturns, hstate, hanswered⟩ := h
  obtain ⟨hreturns', hstate', hanswered'⟩ := h' _ hstate
  rw [Task.run_bind]
  generalize t.run c = o at hreturns hstate hanswered hreturns' hstate' hanswered'
  obtain ⟨value, state, out⟩ := o
  obtain rfl : value = .ok () := hreturns
  refine ⟨hreturns', hstate', ?_⟩
  rw [Outcome.andThen_ok, answers_append, List.append_assoc]
  exact (hanswered'.append_left (answers out)).trans hanswered

/-- Stopping the running session posts its stop and forgets it. -/
theorem run_stopSession {c : CameraCapturer} {s : CameraSession} (hs : c.currentSession = some s)
    (hstat : c.cameraStatistics = true) : stopSession.run c =
      ⟨.ok (), { c with
        cameraThreadHandler := c.cameraThreadHandler ++ [.stop s]
        currentSession := none
        cameraStatistics := false }, []⟩ := by
  simp [stopSession, CameraCapturer.post, hs, hstat]

/-- The switch under way fails, and its handler hears of it. -/
theorem run_failSwitch (error : String) (c : CameraCapturer) : (failSwitch error).run c =
    ⟨.ok (), { c with
      switchState := .idle
      switchEventsHandler := if c.switchState = .idle then c.switchEventsHandler else none },
      (underWay c).map (.onCameraSwitchError · error)⟩ := by
  by_cases hidle : c.switchState = .idle
  · cases c
    simp_all [failSwitch, underWay]
  · cases hhandler : c.switchEventsHandler <;> simp [failSwitch, underWay, hidle, hhandler]

/-- An error told to each of the handlers answers all of them. -/
theorem answers_errors (handlers : List Nat) (error : String) :
    answers (handlers.map (.onCameraSwitchError · error)) = handlers := by
  induction handlers with
  | nil => rfl
  | cons handler handlers ih => simp [answerOf, ih]

section Tasks

variable {c : CameraCapturer} {creating : List CaptureFormat} {opened stopped : List CameraSession}
  (h : Orderly c creating opened stopped)

include h

/-- Where a session runs there are statistics. -/
theorem Orderly.has_statistics {s : CameraSession} (hs : c.currentSession = some s) :
    c.cameraStatistics = true := by
  rw [h.statistics, hs, Option.isSome_some]

/-- While no session is opening `stopCapture` stops the running one. -/
theorem run_stopCapture (hopen : c.sessionOpening = false) : stopCapture.run c =
    match c.currentSession with
    | none => ⟨.ok (), c, []⟩
    | some s => ⟨.ok (), { c with
        cameraThreadHandler := c.cameraThreadHandler ++ [.stop s]
        currentSession := none
        cameraStatistics := false }, [.onCapturerStopped]⟩ := by
  cases hs : c.currentSession with
  | none => simp [stopCapture, hopen, hs]
  | some s => simp [stopCapture, run_stopSession hs (h.has_statistics hs), hopen, hs]

/-- `stopCapture` answers nobody. -/
theorem fine_stopCapture (hopen : c.sessionOpening = false) :
    Fine (stopCapture.run c) (pending c) (Orderly · creating opened stopped) := by
  rw [run_stopCapture h hopen]
  cases hs : c.currentSession with
  | none => exact ⟨rfl, h, .refl _⟩
  | some s =>
    refine ⟨rfl, h.stop hs, ?_⟩
    simp [answerOf, pending, underWay, switchOf]

/-- `startCapture` answers nobody. -/
theorem fine_startCapture (width height framerate : Int32) :
    Fine ((startCapture width height framerate).run c) (pending c)
      (Orderly · creating opened stopped) := by
  cases hopen : c.sessionOpening with
  | true =>
    simp only [startCapture, hopen, Task.run_whenever, Bool.not_true, Bool.false_and,
      Bool.false_eq_true, if_false]
    exact ⟨rfl, h, .refl _⟩
  | false =>
    cases hs : c.currentSession with
    | some s =>
      simp only [startCapture, hs, Task.run_whenever, Option.isNone_some, Bool.and_false,
        Bool.false_eq_true, if_false]
      exact ⟨rfl, h, .refl _⟩
    | none =>
      simp only [startCapture, hopen, hs, Task.run_whenever, Bool.not_false, Option.isNone_none,
        Bool.and_self, if_true]
      refine ⟨rfl, h.start hopen hs ⟨c.format.cameraName, width, height, framerate⟩
        maxOpenCameraAttempts c.switchState c.switchEventsHandler, ?_⟩
      simp [createSessionInternal, CameraCapturer.post, pending, underWay, switchOf]

/-- A report answers the handler it is for. -/
theorem fine_report (error : String) (handler : Option Nat) :
    Fine ((reportCameraSwitchError error handler).run c) (handler.toList ++ pending c)
      (Orderly · creating opened stopped) := by
  cases handler with
  | none => exact ⟨rfl, h, .refl _⟩
  | some handler => exact ⟨rfl, h, .refl _⟩

/-- A switch is answered at once or kept to be answered. -/
theorem fine_switchCameraInternal (deviceNames : List String) (handler : Option Nat) :
    Fine ((switchCameraInternal deviceNames handler).run c) (handler.toList ++ pending c)
      (Orderly · creating opened stopped) := by
  unfold switchCameraInternal
  split_ifs with hfew
  · exact fine_report h _ handler
  · have hgo : ∀ t : CameraCapturer → CaptureTask Unit, (Task.get >>= t).run c = (t c).run c :=
      fun t => by simp
    rw [hgo]
    by_cases hidle : c.switchState = .idle
    · rw [if_neg (not_not.mpr hidle)]
      by_cases hopen : c.sessionOpening = true
      · rw [if_neg (by simp [hopen])]
        simp only [Task.run_bind, Task.run_modify, Outcome.andThen_ok, if_pos hopen]
        refine ⟨rfl, h.wait hopen handler, ?_⟩
        simp [pending, underWay, hidle, List.perm_append_comm]
      · rw [Bool.not_eq_true] at hopen
        cases hs : c.currentSession with
        | none =>
          rw [if_pos (by simp [hopen])]
          exact fine_report h _ handler
        | some s =>
          have hstop := run_stopSession (c := { c with
            switchEventsHandler := handler, switchState := .inProgress }) hs (h.has_statistics hs)
          rw [if_neg (by simp), if_neg (by simp [hopen])]
          simp only [Task.run_bind, Task.run_modify, Outcome.andThen_ok, hstop]
          refine ⟨rfl, (h.stop hs).start hopen rfl { c.format with
            cameraName := nextCamera deviceNames c.format.cameraName } 1 .inProgress handler, ?_⟩
          simp [createSessionInternal, CameraCapturer.post, pending, underWay, hidle, switchOf,
            List.perm_append_comm]
    · rw [if_pos hidle]
      exact fine_report h _ handler

/-- A session that opens answers the switch that has led to it, and starts the one that has waited.
-/
theorem fine_onDone (hcreating : creating ≠ []) (isFrontFacing : String → Bool)
    (deviceNames : List String) (number : Nat) :
    Fine ((onDone isFrontFacing deviceNames ⟨number, c.format⟩).run c) (pending c)
      (Orderly · [] (opened ++ [⟨number, c.format⟩]) stopped) := by
  have hdone := h.done hcreating number false
  cases hswitch : c.switchState with
  | idle =>
    simp only [onDone, Task.run_bind, Task.run_modify, Task.run_emit, Task.run_get,
      Outcome.andThen_ok, hswitch, Task.run_pure]
    refine ⟨rfl, hdone c.switchEventsHandler, ?_⟩
    simp [answerOf, pending, underWay, hswitch]
  | inProgress =>
    simp only [onDone, Task.run_bind, Task.run_modify, Task.run_emit, Task.run_get,
      Outcome.andThen_ok, hswitch, Task.run_whenSome]
    cases hhandler : c.switchEventsHandler with
    | none =>
      refine ⟨rfl, hdone none, ?_⟩
      simp [answerOf, pending, underWay, hhandler]
    | some handler =>
      refine ⟨rfl, hdone none, ?_⟩
      simpa [answerOf, pending, underWay, hhandler, hswitch] using
        (List.perm_append_singleton handler _).symm
  | pending =>
    have hnext := fine_switchCameraInternal (hdone c.switchEventsHandler) deviceNames
      c.switchEventsHandler
    simp only [onDone, Task.run_bind, Task.run_modify, Task.run_emit, Task.run_get,
      Outcome.andThen_ok, hswitch]
    refine ⟨hnext.returns, hnext.state, ?_⟩
    refine List.Perm.trans ?_ (hnext.answered.trans ?_)
    · simp [answerOf]
    · simp [pending, underWay, hswitch, List.perm_append_comm]

/-- A session that does not open answers the switch once no try is left. -/
theorem fine_onFailure (hcreating : creating ≠ []) (failureType : FailureType) (error : String) :
    Fine ((onFailure failureType error).run c) (pending c) (Orderly · [] opened stopped) := by
  simp only [onFailure, Task.run_bind, Task.run_modify, Task.run_emit, Task.run_get,
    Outcome.andThen_ok]
  split_ifs with hlast
  · simp only [Task.run_bind, Task.run_modify, Task.run_emit, Outcome.andThen_ok, run_failSwitch]
    have hstarted : answerOf (.onCapturerStarted false) = none := rfl
    have hnone : answerOf (FailureType.effect error failureType) = none := by
      cases failureType <;> rfl
    refine ⟨rfl, h.fail hcreating _ _, ?_⟩
    simp [pending, underWay, answers_errors, hstarted, hnone, List.perm_append_comm]
  · refine ⟨rfl, h.retry hcreating _, ?_⟩
    simp [answerOf, createSessionInternal, openCameraDelayMs, pending, underWay]

/-- The camera thread calls `stopCapture` for the session that is running: it need not wait. -/
theorem fine_stopRunning (session : CameraSession) (e : CaptureEffect) (he : answerOf e = none) :
    Fine ((Task.whenever (·.currentSession = some session) do
        Task.emit e
        stopCapture : CaptureTask Unit).run c) (pending c)
      (Orderly · creating opened stopped) := by
  by_cases hs : c.currentSession = some session
  · obtain ⟨hreturns, hstate, hanswered⟩ := fine_stopCapture h (h.not_opening hs)
    simp only [Task.run_whenever, Task.run_bind, Task.run_emit, Outcome.andThen_ok, hs, decide_true,
      if_true]
    refine ⟨hreturns, hstate, ?_⟩
    simpa [he] using hanswered
  · simp only [Task.run_whenever, hs, decide_false, Bool.false_eq_true, if_false]
    exact ⟨rfl, h, .refl _⟩

/-- A frame answers nobody. -/
theorem fine_onFrameCaptured (session : CameraSession) :
    Fine ((onFrameCaptured session).run c) (pending c) (Orderly · creating opened stopped) := by
  by_cases hs : c.currentSession = some session
  · cases hfirst : c.firstFrameObserved with
    | true =>
      have hrun : (onFrameCaptured session).run c =
          ⟨.ok (), c, [.onFrameCaptured session]⟩ := by
        simp [onFrameCaptured, hs, hfirst, h.has_statistics hs]
      rw [hrun]
      exact ⟨rfl, h, .refl _⟩
    | false =>
      have hrun : (onFrameCaptured session).run c = ⟨.ok (), { c with firstFrameObserved := true },
          [.onFirstFrameAvailable, .onFrameCaptured session]⟩ := by
        simp [onFrameCaptured, hs, hfirst, h.has_statistics hs]
      rw [hrun]
      exact ⟨rfl, h.observe true, .refl _⟩
  · have hrun : (onFrameCaptured session).run c = ⟨.ok (), c, []⟩ := by
      simp [onFrameCaptured, hs]
    rw [hrun]
    exact ⟨rfl, h, .refl _⟩

end Tasks

/-! ### Runs -/

/-- The handlers an event brings. -/
def asked : CaptureEvent → List Nat
  | .switchCamera switchEventsHandler => switchEventsHandler.toList
  | _ => []

/-- The next task of the camera thread answers what it takes. -/
theorem fine_next {c : Capture} (h : Orderly c.capturer c.creating c.opened c.stopped)
    (isFrontFacing : String → Bool) (deviceNames : List String) :
    Fine ((c.task isFrontFacing (.next deviceNames)).run c.capturer) (pending c.capturer)
      (Orderly · (c.book (.next deviceNames)).creating (c.book (.next deviceNames)).opened
        (c.book (.next deviceNames)).stopped) := by
  cases htake : c.capturer.cameraThreadHandler with
  | nil =>
    simp only [task, book, taken, htake, Task.run_bind, Task.run_modify, Outcome.andThen_ok,
      List.head?_nil, List.tail_nil, Task.run_pure]
    rw [← htake]
    exact ⟨rfl, h, .refl _⟩
  | cons t tasks =>
    cases t with
    | create =>
      simp only [task, book, taken, htake, Task.run_bind, Task.run_modify, Outcome.andThen_ok,
        List.head?_cons, List.tail_cons, Task.run_pure]
      refine ⟨rfl, h.take_create htake, ?_⟩
      simp [pending, underWay, htake, switchOf]
    | stop s =>
      simp only [task, book, taken, htake, Task.run_bind, Task.run_modify, Outcome.andThen_ok,
        List.head?_cons, List.tail_cons, Task.run_pure]
      refine ⟨rfl, h.take_stop htake, ?_⟩
      simp [pending, underWay, htake, switchOf]
    | switch handler =>
      have hnext := fine_switchCameraInternal (h.take_switch htake) deviceNames handler
      simp only [task, book, taken, htake, Task.run_bind, Task.run_modify, Outcome.andThen_ok,
        List.head?_cons, List.tail_cons]
      refine ⟨hnext.returns, hnext.state, hnext.answered.trans ?_⟩
      simp [pending, underWay, htake, switchOf]

/-- Every event keeps the sessions in order, and its task comes to its end. -/
theorem fine_task {c : Capture} (h : Orderly c.capturer c.creating c.opened c.stopped)
    (isFrontFacing : String → Bool) {e : CaptureEvent} (hok : c.Allowed e) :
    Fine ((c.task isFrontFacing e).run c.capturer) (asked e ++ pending c.capturer)
      (Orderly · (c.book e).creating (c.book e).opened (c.book e).stopped) := by
  cases e with
  | startCapture width height framerate => exact fine_startCapture h width height framerate
  | stopCapture => exact fine_stopCapture h hok
  | changeCaptureFormat width height framerate =>
    exact (fine_stopCapture h hok).bind fun c' hc' => fine_startCapture hc' width height framerate
  | switchCamera handler =>
    refine ⟨rfl, h.post handler, ?_⟩
    simp only [task, CameraCapturer.switchCamera, CameraCapturer.post, Task.run_modify, answers_nil,
      List.nil_append, pending, underWay, asked, switchOf, switches_append, switches_cons,
      switches_nil, List.append_nil, ← List.append_assoc]
    exact List.perm_append_comm.append_right _
  | next deviceNames => exact fine_next h isFrontFacing deviceNames
  | due =>
    refine ⟨rfl, h.due, ?_⟩
    obtain hnone | hone := h.delayed_cases
    · simp [task, asked, pending, underWay, hnone]
    · simp [task, asked, pending, underWay, hone, switchOf]
  | onDone deviceNames =>
    have hbegun := (h.begun hok).2.2.2.2
    have hmade : c.made = some ⟨c.opened.length, c.capturer.format⟩ := by
      rw [made, hbegun]
      rfl
    have hdone := fine_onDone h hok isFrontFacing deviceNames c.opened.length
    simp only [task, book, hmade, Task.run_whenSome, Option.elim_some, Option.toList_some, hbegun,
      List.tail_cons]
    exact hdone
  | onFailure failureType error =>
    have hbegun := (h.begun hok).2.2.2.2
    simp only [task, book, hbegun, List.tail_cons]
    exact fine_onFailure h hok failureType error
  | onCameraOpening =>
    cases hs : c.capturer.currentSession with
    | none =>
      have hrun : CameraCapturer.onCameraOpening.run c.capturer =
          ⟨.ok (), c.capturer, [.onCameraOpening c.capturer.format.cameraName]⟩ := by
        simp [CameraCapturer.onCameraOpening, hs]
      rw [task, hrun]
      exact ⟨rfl, h, .refl _⟩
    | some s =>
      have hrun : CameraCapturer.onCameraOpening.run c.capturer = ⟨.ok (), c.capturer, []⟩ := by
        simp [CameraCapturer.onCameraOpening, hs]
      rw [task, hrun]
      exact ⟨rfl, h, .refl _⟩
  | onCameraError session error => exact fine_stopRunning h session (.onCameraError error) rfl
  | onCameraDisconnected session => exact fine_stopRunning h session .onCameraDisconnected rfl
  | onCameraClosed session =>
    simp only [task, CameraCapturer.onCameraClosed, Task.run_whenever]
    split_ifs
    · exact ⟨rfl, h, .refl _⟩
    · exact ⟨rfl, h, .refl _⟩
  | onFrameCaptured session => exact fine_onFrameCaptured h session
  | openCameraTimeout => exact ⟨rfl, h.timedOut, .refl _⟩

/-- What holds in every state of a run. -/
structure Sound (c : Capture) : Prop where
  orderly : Orderly c.capturer c.creating c.opened c.stopped
  numbered : c.opened.map (·.number) = List.range c.opened.length
  answered : (answers c.told ++ pending c.capturer).Perm c.requested

variable {isFrontFacing : String → Bool}

/-- Every allowed event keeps the account right. -/
theorem Sound.step {c : Capture} {e : CaptureEvent} (h : c.Sound) (hok : c.Allowed e) :
    (c.step isFrontFacing e).Sound := by
  obtain ⟨-, hstate, hanswered⟩ := fine_task h.orderly isFrontFacing hok
  refine ⟨hstate, ?_, ?_⟩
  · cases e with
    | onDone deviceNames =>
      have hmade : ∀ s ∈ c.made, s.number = c.opened.length := by
        intro s hs
        obtain ⟨f, -, rfl⟩ := Option.map_eq_some_iff.mp hs
        rfl
      cases hm : c.made with
      | none => simp [Capture.step, book, hm, h.numbered]
      | some s => simp [Capture.step, book, hm, h.numbered, hmade s hm, List.range_succ]
    | next deviceNames =>
      simp only [Capture.step, book]
      split <;> exact h.numbered
    | _ => exact h.numbered
  · have hrequested : (c.step isFrontFacing e).requested = c.requested ++ asked e := by
      cases e with
      | next deviceNames =>
        simp only [Capture.step, book]
        split <;> exact (List.append_nil _).symm
      | switchCamera handler => rfl
      | _ => exact (List.append_nil _).symm
    rw [hrequested, Capture.step, answers_append, List.append_assoc]
    refine (hanswered.append_left (answers c.told)).trans ?_
    rw [← List.append_assoc]
    refine (List.perm_append_comm.append_right _).trans ?_
    rw [List.append_assoc]
    exact (h.answered.append_left (asked e)).trans List.perm_append_comm

variable {cameraName : String} {es : List CaptureEvent}

/-- The account is right in every state of an allowed run. -/
theorem sound_throughout (h : Along (step isFrontFacing) Allowed (start cameraName) es) :
    Throughout (step isFrontFacing) Sound (start cameraName) es :=
  h.throughout (fun _ _ hc hok => hc.step hok) ⟨orderly_start cameraName, rfl, .refl _⟩

/-- A camera is opened, switched and stopped. -/
def switchRun : List CaptureEvent :=
  [.startCapture 640 480 30, .next [], .onDone [], .switchCamera (some 7), .next ["0", "1"],
    .next [], .next [], .onDone [], .stopCapture, .next []]

/-- The calls and callbacks of the run come in an allowed order. -/
theorem switchRun_allowed :
    Along (step fun name => name == "1") Allowed (start "0") switchRun := by
  refine ⟨trivial, trivial, ?_, trivial, trivial, trivial, trivial, ?_, ?_, trivial, trivial⟩
  · exact List.cons_ne_nil _ _
  · exact List.cons_ne_nil _ _
  · rfl

/-- A creation that has begun and an open session exclude each other. -/
theorem Orderly.one {c : CameraCapturer} {creating : List CaptureFormat}
    {opened stopped : List CameraSession} (h : Orderly c creating opened stopped) :
    creating.length + (opened.length - stopped.length) ≤ 1 := by
  rw [h.ledger, List.length_append, Nat.add_sub_cancel_left]
  cases hopen : c.sessionOpening with
  | false =>
    obtain ⟨-, -, hcreating, hone⟩ := h.resting hopen
    rw [hcreating, List.length_nil, Nat.zero_add]
    exact hone
  | true =>
    rw [h.current hopen, Option.toList_none, List.append_nil]
    cases h.opening hopen with
    | posted pre post htasks _ _ hstops hlast _ hcreating =>
      simpa [htasks, hlast, hcreating] using hstops
    | delayed _ hstops _ hcreating => simp [hstops, hcreating]
    | begun _ hstops _ hcreating => simp [hstops, hcreating]

/-- **One camera at a time.** In every run a creation begins only when every session before it has
been stopped: at most one session is being created or not stopped yet, and the sessions are stopped
in their order, each once. -/
theorem one_camera_at_a_time (isFrontFacing : String → Bool) (cameraName : String)
    (es : List CaptureEvent) (h : Along (step isFrontFacing) Allowed (start cameraName) es) :
    Throughout (step isFrontFacing) (fun c => c.stopped <+: c.opened ∧ c.opened.Nodup ∧
      c.creating.length + (c.opened.length - c.stopped.length) ≤ 1) (start cameraName) es := by
  refine (sound_throughout h).imp fun c hc => ⟨?_, ?_, hc.orderly.one⟩
  · rw [hc.orderly.ledger]
    exact List.prefix_append _ _
  · apply List.Nodup.of_map (·.number)
    rw [hc.numbered]
    exact List.nodup_range

/-- In the run the first camera is closed before the second one opens. -/
theorem one_camera_at_a_time_switch :
    Throughout (step fun name => name == "1") (fun c => c.stopped <+: c.opened ∧ c.opened.Nodup ∧
      c.creating.length + (c.opened.length - c.stopped.length) ≤ 1) (start "0") switchRun :=
  one_camera_at_a_time _ _ _ switchRun_allowed

/-- **No task gets stuck.** In every run every task comes to its end: none finds the statistics of a
running session missing, and the camera thread never waits for a session that only it can open. -/
theorem never_stuck (isFrontFacing : String → Bool) (cameraName : String)
    (es : List CaptureEvent) (h : Along (step isFrontFacing) Allowed (start cameraName) es) :
    Along (step isFrontFacing)
      (fun c e => ((c.task isFrontFacing e).run c.capturer).value = .ok ()) (start cameraName) es :=
  (sound_throughout h).along
    (fun _ _ hc hok => (fine_task hc.orderly isFrontFacing hok).returns) h

/-- In the run no task raises. -/
theorem never_stuck_switch :
    Along (step fun name => name == "1")
      (fun c e => ((c.task (fun name => name == "1") e).run c.capturer).value = .ok ())
      (start "0") switchRun :=
  never_stuck _ _ _ switchRun_allowed

/-- **Switches are answered once.** In every run the handlers that have been answered, those whose
switch is posted and the one whose switch is under way are together the handlers asked with, each as
often as it was. -/
theorem switch_answered_once (isFrontFacing : String → Bool) (cameraName : String)
    (es : List CaptureEvent) (h : Along (step isFrontFacing) Allowed (start cameraName) es) :
    Throughout (step isFrontFacing)
      (fun c => (answers c.told ++ (switches c.capturer.cameraThreadHandler ++
        underWay c.capturer)).Perm c.requested) (start cameraName) es :=
  (sound_throughout h).imp fun _ hc => hc.answered

/-- In the run every switch is answered. -/
theorem switch_answered_once_switch :
    Throughout (step fun name => name == "1")
      (fun c => (answers c.told ++ (switches c.capturer.cameraThreadHandler ++
        underWay c.capturer)).Perm c.requested) (start "0") switchRun :=
  switch_answered_once _ _ _ switchRun_allowed

/-- **What runs is what was asked for.** In every run the session that is running has the camera
and the format that are set; every session before it has been stopped. The open timeout is posted
once, and only while a session is opening. -/
theorem runs_as_asked (isFrontFacing : String → Bool) (cameraName : String)
    (es : List CaptureEvent) (h : Along (step isFrontFacing) Allowed (start cameraName) es) :
    Throughout (step isFrontFacing) (fun c =>
      (∀ s, c.capturer.currentSession = some s →
        s.format = c.capturer.format ∧ c.opened = c.stopped ++ [s]) ∧
      (0 < c.capturer.uiThreadHandler →
        c.capturer.uiThreadHandler = 1 ∧ c.capturer.sessionOpening = true))
      (start cameraName) es := by
  refine (sound_throughout h).imp fun c hc => ⟨fun s hs => ⟨hc.orderly.format s hs, ?_⟩,
    hc.orderly.timeout⟩
  have hone := (hc.orderly.resting (hc.orderly.not_opening hs)).one
  have hledger := hc.orderly.ledger
  rw [hs, Option.toList_some] at hone hledger
  rw [List.length_append, List.length_singleton] at hone
  have hnil : stops c.capturer.cameraThreadHandler = [] := List.length_eq_zero_iff.mp (by omega)
  rw [hledger, hnil, List.nil_append]

/-- In the run each of the two sessions has the camera and the format of its time. -/
theorem runs_as_asked_switch :
    Throughout (step fun name => name == "1") (fun c =>
      (∀ s, c.capturer.currentSession = some s →
        s.format = c.capturer.format ∧ c.opened = c.stopped ++ [s]) ∧
      (0 < c.capturer.uiThreadHandler →
        c.capturer.uiThreadHandler = 1 ∧ c.capturer.sessionOpening = true))
      (start "0") switchRun :=
  runs_as_asked _ _ _ switchRun_allowed

end Capture

end WebrtcCaller.Media
