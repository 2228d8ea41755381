import Mathlib
import WebrtcCaller.Core.Task

/-!
# The camera capturer

`CameraCapturer` opens, stops and switches camera sessions. Its methods hold the state lock, so each
is one task; what it wants done on the camera thread it posts there. The thread that calls
`stopCapture` while a session is opening waits until it is open: the task then raises `waiting`. The
capturer has been initialized, and its events handler and its observer are never null.
-/

namespace WebrtcCaller.Media

/-- How far a switch of the camera is. -/
inductive SwitchState where
  | idle
  | pending
  | inProgress
  deriving DecidableEq, Repr

/-- What a session is created for. -/
structure CaptureFormat where
  cameraName : String
  width : Int32
  height : Int32
  framerate : Int32
  deriving DecidableEq, Repr

/-- A session of a camera, known by its creation number. -/
structure CameraSession where
  number : Nat
  format : CaptureFormat
  deriving DecidableEq, Repr

/-- Why a session did not open. -/
inductive FailureType where
  | error
  | disconnected
  deriving DecidableEq, Repr

/-- What is posted to the camera thread. -/
inductive CameraTask where
  | create
  | stop (session : CameraSession)
  | switch (switchEventsHandler : Option Nat)
  deriving DecidableEq, Repr

/-- What the capturer tells its observer, its events handler and the handlers of switches. -/
inductive CaptureEffect where
  | onCapturerStarted (success : Bool)
  | onCapturerStopped
  | onFrameCaptured (session : CameraSession)
  | onCameraOpening (cameraName : String)
  | onCameraError (error : String)
  | onCameraDisconnected
  | onCameraClosed
  | onFirstFrameAvailable
  | onCameraSwitchDone (handler : Nat) (isFrontFacing : Bool)
  | onCameraSwitchError (handler : Nat) (error : String)

/-- What keeps a task from its end. -/
inductive Stuck where
  | nullPointer
  | waiting
  deriving DecidableEq, Repr

/-- The capturer with the queues of its two threads. -/
structure CameraCapturer where
  /-- The tasks of the camera thread, in order. -/
  cameraThreadHandler : List CameraTask
  /-- Those that are not due yet. -/
  delayed : List CameraTask
  /-- How often `openCameraTimeoutRunnable` is posted. -/
  uiThreadHandler : Nat
  sessionOpening : Bool
  currentSession : Option CameraSession
  format : CaptureFormat
  openAttemptsRemaining : Int
  switchState : SwitchState
  switchEventsHandler : Option Nat
  /-- There is an object for the statistics. -/
  cameraStatistics : Bool
  firstFrameObserved : Bool

/-- A piece of the capturer's work, up to the next thing it posts. -/
abbrev CaptureTask (α : Type) := Task CameraCapturer CaptureEffect Stuck α

namespace CameraCapturer

/-- A first opening is tried three times, a switch once. -/
def maxOpenCameraAttempts : Int := 3
/-- The wait before another try. -/
def openCameraDelayMs : Nat := 500

/-- A capturer of the camera that has not been started. -/
def init (cameraName : String) : CameraCapturer :=
  ⟨[], [], 0, false, none, ⟨cameraName, 0, 0, 0⟩, 0, .idle, none, false, false⟩

/-- The camera thread takes the task after those it has. -/
def post (task : CameraTask) : CaptureTask Unit :=
  Task.modify fun c => { c with cameraThreadHandler := c.cameraThreadHandler ++ [task] }

/-- The creation is posted with its timeout, at once or after a delay. -/
def createSessionInternal (delayMs : Nat) : CaptureTask Unit := do
  Task.modify fun c => { c with uiThreadHandler := c.uiThreadHandler + 1 }
  if delayMs = 0 then post .create
  else Task.modify fun c => { c with delayed := c.delayed ++ [.create] }

/-- Nothing happens while a session is opening or running. -/
def startCapture (width height framerate : Int32) : CaptureTask Unit :=
  Task.whenever (fun c => !c.sessionOpening && c.currentSession.isNone) do
    Task.modify fun c =>
      { c with
        format := ⟨c.format.cameraName, width, height, framerate⟩
        sessionOpening := true
        openAttemptsRemaining := maxOpenCameraAttempts }
    createSessionInternal 0

/-- The current session is stopped on the camera thread and forgotten here. -/
def stopSession : CaptureTask Unit := do
  Task.whenever (!·.cameraStatistics) (Task.raise .nullPointer)
  Task.modify fun c => { c with cameraStatistics := false }
  Task.whenSome (·.currentSession) fun oldSession => post (.stop oldSession)
  Task.modify fun c => { c with currentSession := none }

/-- The thread waits while a session is opening, so the call goes on only afterwards. -/
def stopCapture : CaptureTask Unit := do
  Task.whenever (·.sessionOpening) (Task.raise .waiting)
  Task.whenever (·.currentSession.isSome) do
    stopSession
    Task.emit .onCapturerStopped

/-- The capture is stopped and started again in the new format. -/
def changeCaptureFormat (width height framerate : Int32) : CaptureTask Unit := do
  stopCapture
  startCapture width height framerate

/-- The switch is made on the camera thread. -/
def switchCamera (switchEventsHandler : Option Nat) : CaptureTask Unit :=
  post (.switch switchEventsHandler)

/-- A switch nobody asked about is reported to nobody. -/
def reportCameraSwitchError (error : String) (switchEventsHandler : Option Nat) :
    CaptureTask Unit :=
  Task.whenSome (fun _ => switchEventsHandler) fun handler =>
    Task.emit (.onCameraSwitchError handler error)

/-- The camera behind the present one in the list, the first one when it is not there. -/
def nextCamera (deviceNames : List String) (cameraName : String) : String :=
  deviceNames.getD
    (if cameraName ∈ deviceNames then (deviceNames.idxOf cameraName + 1) % deviceNames.length
      else 0) ""

/-- A switch is refused, or waits for the session that is opening, or has the running one stopped.
-/
def switchCameraInternal (deviceNames : List String) (switchEventsHandler : Option Nat) :
    CaptureTask Unit :=
  if deviceNames.length < 2 then
    reportCameraSwitchError "No camera to switch to." switchEventsHandler
  else do
    let c ← Task.get
    if c.switchState ≠ .idle then
      reportCameraSwitchError "Camera switch already in progress." switchEventsHandler
    else if !c.sessionOpening && c.currentSession.isNone then
      reportCameraSwitchError "switchCamera: camera is not running." switchEventsHandler
    else
      Task.modify fun c => { c with switchEventsHandler := switchEventsHandler }
      if c.sessionOpening then
        Task.modify fun c => { c with switchState := .pending }
      else
        Task.modify fun c => { c with switchState := .inProgress }
        stopSession
        Task.modify fun c =>
          { c with
            format := { c.format with cameraName := nextCamera deviceNames c.format.cameraName }
            sessionOpening := true
            openAttemptsRemaining := 1 }
        createSessionInternal 0

/-- `createSessionCallback.onDone`. -/
def onDone (isFrontFacing : String → Bool) (deviceNames : List String) (session : CameraSession) :
    CaptureTask Unit := do
  Task.modify fun c => { c with uiThreadHandler := 0 }
  Task.emit (.onCapturerStarted true)
  Task.modify fun c =>
    { c with
      sessionOpening := false
      currentSession := some session
      cameraStatistics := true
      firstFrameObserved := false }
  let c ← Task.get
  match c.switchState with
  | .inProgress =>
    Task.modify fun c => { c with switchState := .idle }
    Task.whenSome (·.switchEventsHandler) fun handler => do
      Task.emit (.onCameraSwitchDone handler (isFrontFacing c.format.cameraName))
      Task.modify fun c => { c with switchEventsHandler := none }
  | .pending =>
    Task.modify fun c => { c with switchState := .idle }
    switchCameraInternal deviceNames c.switchEventsHandler
  | .idle => pure ()

/-- A switch whose session does not open has failed. -/
def failSwitch (error : String) : CaptureTask Unit :=
  Task.whenever (·.switchState ≠ .idle) do
    Task.whenSome (·.switchEventsHandler) fun handler => do
      Task.emit (.onCameraSwitchError handler error)
      Task.modify fun c => { c with switchEventsHandler := none }
    Task.modify fun c => { c with switchState := .idle }

/-- What the events handler is told of a session that did not open. -/
def FailureType.effect (error : String) : FailureType → CaptureEffect
  | .disconnected => .onCameraDisconnected
  | .error => .onCameraError error

/-- `createSessionCallback.onFailure`. -/
def onFailure (failureType : FailureType) (error : String) : CaptureTask Unit := do
  Task.modify fun c => { c with uiThreadHandler := 0 }
  Task.emit (.onCapturerStarted false)
  Task.modify fun c => { c with openAttemptsRemaining := c.openAttemptsRemaining - 1 }
  if (← Task.get).openAttemptsRemaining ≤ 0 then
    Task.modify fun c => { c with sessionOpening := false }
    failSwitch error
    Task.emit (FailureType.effect error failureType)
  else createSessionInternal openCameraDelayMs

/-! ### Events of sessions -/

/-- The camera is announced unless a session is running. -/
def onCameraOpening : CaptureTask Unit := do
  let c ← Task.get
  if c.currentSession.isNone then Task.emit (.onCameraOpening c.format.cameraName)

/-- An error of the running session stops the capture. -/
def onCameraError (session : CameraSession) (error : String) : CaptureTask Unit :=
  Task.whenever (·.currentSession = some session) do
    Task.emit (.onCameraError error)
    stopCapture

/-- So does its disconnection. -/
def onCameraDisconnected (session : CameraSession) : CaptureTask Unit :=
  Task.whenever (·.currentSession = some session) do
    Task.emit .onCameraDisconnected
    stopCapture

/-- A close is told unless another session is running. -/
def onCameraClosed (session : CameraSession) : CaptureTask Unit :=
  Task.whenever (fun c => c.currentSession = some session || c.currentSession.isNone)
    (Task.emit .onCameraClosed)

/-- A frame of a session that is not running is dropped. -/
def onFrameCaptured (session : CameraSession) : CaptureTask Unit :=
  Task.whenever (·.currentSession = some session) do
    Task.whenever (!·.firstFrameObserved) do
      Task.emit .onFirstFrameAvailable
      Task.modify fun c => { c with firstFrameObserved := true }
    Task.whenever (!·.cameraStatistics) (Task.raise .nullPointer)
    Task.emit (.onFrameCaptured session)

end CameraCapturer

end WebrtcCaller.Media
