import Mathlib
import WebrtcCaller.Core.Run
import WebrtcCaller.Core.Task

/-!
# Texture frames

`SurfaceTextureHelper` hands the frames of a camera to a listener, one at a time: the texture of a
frame is in use until everybody who holds the frame has released it. Its handler runs tasks in
order; `invokeAtFrontUninterruptibly` runs its callable at once on the thread of the handler. From
any other thread it posts it behind the others and waits for a latch. What is posted after the
looper has quit is lost, and what is still queued when it quits as well: nobody counts the latch
down then.
-/

namespace WebrtcCaller.Media

/-- What `stopListening` and `dispose` have run on the thread of the handler. -/
inductive TextureCallable where
  | stopListening
  | dispose
  deriving DecidableEq, Repr

/-- The tasks of the handler. -/
inductive TextureTask where
  | setListener
  | setTextureSize (textureWidth textureHeight : Int32)
  | setFrameRotation (rotation : Int32)
  | frameAvailable
  | returned
  /-- A callable that another thread waits for, with the number of its latch. -/
  | invoked (barrier : Nat) (callable : TextureCallable)
  deriving DecidableEq, Repr

/-- What a task throws; `wrapped` is a `RuntimeException` with a cause. -/
inductive Thrown where
  | illegalState (message : String)
  | illegalArgument (message : String)
  | runtime (message : String)
  | wrapped (cause : Thrown)
  deriving DecidableEq, Repr

/-- What the helper does to the texture, the listener and the threads that wait. -/
inductive TextureEffect where
  | updateTexImage
  | onFrame (listener : Nat) (textureWidth textureHeight rotation : Int32)
  | release
  /-- The thread that waits for the latch goes on; it throws what has been caught, wrapped. -/
  | countDown (barrier : Nat) (caught : Except Thrown Unit)
  deriving DecidableEq

/-- The fields of the helper, its handler and the frame it has given away. -/
structure SurfaceTextureHelper where
  handler : List TextureTask
  /-- The looper of the handler has quit. -/
  quit : Bool
  listener : Option Nat
  pendingListener : Option Nat
  hasPendingTexture : Bool
  isTextureInUse : Bool
  isQuitting : Bool
  frameRotation : Int32
  textureWidth : Int32
  textureHeight : Int32
  /-- The references to the frame in flight. -/
  refCount : Nat

/-- A piece of the helper's work on its handler thread. -/
abbrev HelperTask (α : Type) := Task SurfaceTextureHelper TextureEffect Thrown α

namespace SurfaceTextureHelper

/-- A new helper with nothing on its handler. -/
def init : SurfaceTextureHelper :=
  ⟨[], false, none, none, false, false, false, 0, 0, 0, 0⟩

/-- `handler.post`. -/
def post (task : TextureTask) : HelperTask Unit :=
  Task.modify fun c => if c.quit then c else { c with handler := c.handler ++ [task] }

/-- The return of the frame, from whatever thread. -/
def returnTextureFrame : HelperTask Unit := post .returned

/-- The release of one reference to the frame. -/
def releaseFrame : HelperTask Unit := do
  Task.modify fun c => { c with refCount := c.refCount - 1 }
  Task.whenever (·.refCount = 0) returnTextureFrame

/-- The new frame goes to the listener, which may keep references to it. -/
def deliver (listener kept : Nat) : HelperTask Unit := do
  Task.modify fun c => { c with isTextureInUse := true, hasPendingTexture := false }
  Task.emit .updateTexImage
  let c ← Task.get
  if c.textureWidth = 0 ∨ c.textureHeight = 0 then
    Task.raise (.runtime "Texture size has not been set.")
  else
    Task.modify fun c => { c with refCount := 1 }
    Task.emit (.onFrame listener c.textureWidth c.textureHeight c.frameRotation)
    Task.modify fun c => { c with refCount := c.refCount + kept }
    releaseFrame

/-- A pending frame is delivered unless the one before is still out. -/
def tryDeliverTextureFrame (kept : Nat) : HelperTask Unit := do
  let c ← Task.get
  match c.listener with
  | none => pure ()
  | some listener =>
    if c.isQuitting || !c.hasPendingTexture || c.isTextureInUse then pure ()
    else deliver listener kept

/-- The texture and its helpers go, and the looper quits. -/
def release : HelperTask Unit := do
  Task.whenever (fun c => c.isTextureInUse || !c.isQuitting)
    (Task.raise (.illegalState "Unexpected release."))
  Task.emit .release
  Task.modify fun c => { c with quit := true, handler := [] }

/-- The callables. -/
def call : TextureCallable → HelperTask Unit
  | .stopListening => Task.modify fun c => { c with listener := none, pendingListener := none }
  | .dispose => do
    Task.modify fun c => { c with isQuitting := true }
    Task.whenever (!·.isTextureInUse) release

/-- The body of a task of the handler. -/
def runTask (kept : Nat) : TextureTask → HelperTask Unit
  | .setListener => do
    Task.modify fun c => { c with listener := c.pendingListener, pendingListener := none }
    Task.whenever (·.hasPendingTexture) do
      Task.emit .updateTexImage
      Task.modify fun c => { c with hasPendingTexture := false }
  | .setTextureSize textureWidth textureHeight =>
    Task.modify fun c => { c with textureWidth := textureWidth, textureHeight := textureHeight }
  | .setFrameRotation rotation => Task.modify fun c => { c with frameRotation := rotation }
  | .frameAvailable => do
    Task.modify fun c => { c with hasPendingTexture := true }
    tryDeliverTextureFrame kept
  | .returned => do
    Task.modify fun c => { c with isTextureInUse := false }
    if (← Task.get).isQuitting then release else tryDeliverTextureFrame kept
  | .invoked barrier callable => do
    let caught ← (call callable).attempt
    Task.emit (.countDown barrier caught)

/-- `ThreadUtils.invokeAtFrontUninterruptibly`, on the thread of the handler or from another thread
that will wait for the latch `barrier`. -/
def invokeAtFront (barrier : Option Nat) (callable : TextureCallable) : HelperTask Unit :=
  match barrier with
  | none => do
    let caught ← (call callable).attempt
    Task.ofExcept (caught.mapError .wrapped)
  | some barrier => post (.invoked barrier callable)

/-- The listener is set by the handler. -/
def startListening (listener : Nat) : HelperTask Unit := do
  Task.whenever (fun c => c.listener.isSome || c.pendingListener.isSome)
    (Task.raise (.illegalState "SurfaceTextureHelper listener has already been set."))
  Task.modify fun c => { c with pendingListener := some listener }
  post .setListener

/-- The listener that waits is dropped, and the one that is set is taken away on the handler thread.
-/
def stopListening (barrier : Option Nat) : HelperTask Unit := do
  Task.modify fun c => { c with handler := c.handler.filter (· ≠ .setListener) }
  invokeAtFront barrier .stopListening

/-- Only a size that is positive is passed on. -/
def setTextureSize (textureWidth textureHeight : Int32) : HelperTask Unit :=
  if textureWidth ≤ 0 then
    Task.raise (.illegalArgument
      ("Texture width must be positive, but was " ++ toString textureWidth))
  else if textureHeight ≤ 0 then
    Task.raise (.illegalArgument
      ("Texture height must be positive, but was " ++ toString textureHeight))
  else post (.setTextureSize textureWidth textureHeight)

/-- The helper is told to quit on its handler thread. -/
def dispose (barrier : Option Nat) : HelperTask Unit := invokeAtFront barrier .dispose

/-! What the callables do; neither raises. -/

/-- The helper after `dispose` has run. -/
def disposed (c : SurfaceTextureHelper) : SurfaceTextureHelper :=
  if c.isTextureInUse then { c with isQuitting := true }
  else { c with isQuitting := true, quit := true, handler := [] }

/-- Stopping takes both listeners away. -/
theorem run_call_stopListening (c : SurfaceTextureHelper) : (call .stopListening).run c =
    ⟨.ok (), { c with listener := none, pendingListener := none }, []⟩ := rfl

/-- Disposing releases everything unless the frame is in use. -/
theorem run_call_dispose (c : SurfaceTextureHelper) : (call .dispose).run c =
    ⟨.ok (), disposed c, if c.isTextureInUse then [] else [.release]⟩ := by
  cases huse : c.isTextureInUse <;> simp [call, release, disposed, huse]

/-- No call raises on the handler thread. -/
theorem value_call (callable : TextureCallable) (c : SurfaceTextureHelper) :
    ((call callable).run c).value = .ok () := by
  cases callable with
  | stopListening => rw [run_call_stopListening]
  | dispose => rw [run_call_dispose]

/-- On the thread of the handler the callable is simply called. -/
theorem run_invokeAtFront_none (callable : TextureCallable) (c : SurfaceTextureHelper) :
    (invokeAtFront none callable).run c = (call callable).run c := by
  have hvalue := value_call callable c
  rw [invokeAtFront, Task.run_bind, Task.run_attempt, Outcome.andThen_ok, hvalue]
  generalize (call callable).run c = o at hvalue ⊢
  obtain ⟨value, state, out⟩ := o
  subst hvalue
  simp [Except.mapError]

/-- A posted callable is called, and then its latch is counted down. -/
theorem run_invoked (kept barrier : Nat) (callable : TextureCallable) (c : SurfaceTextureHelper) :
    (runTask kept (.invoked barrier callable)).run c = ⟨.ok (), ((call callable).run c).state,
      ((call callable).run c).out ++ [.countDown barrier (.ok ())]⟩ := by
  rw [runTask, Task.run_bind, Task.run_attempt, Outcome.andThen_ok, value_call, Task.run_emit]

end SurfaceTextureHelper

end WebrtcCaller.Media
