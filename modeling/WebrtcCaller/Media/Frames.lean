import Mathlib
import WebrtcCaller.Media.Texture

/-!
# Frames over a run

Calls from any thread, new frames of the camera, tasks of the handler and what the holders of a
frame do to it, in any order.
-/

namespace WebrtcCaller.Media

open SurfaceTextureHelper

/-- The helper with the account of what has been asked of it and of what it has done. -/
structure Streaming where
  helper : SurfaceTextureHelper
  /-- How many calls of `startListening` there have been; their listeners are numbered. -/
  started : Nat
  /-- The listeners before this one have been stopped. -/
  ended : Nat
  /-- The size of the texture has been set. -/
  sized : Bool
  /-- How many calls have come from other threads that wait; their latches are numbered. -/
  barriers : Nat
  /-- Everything the helper has done, in order. -/
  told : List TextureEffect

/-- Calls, frames of the camera, references to the frame, and the turns of the handler. -/
inductive TextureEvent where
  | startListening
  | stopListening (onHandlerThread : Bool)
  | setTextureSize (textureWidth textureHeight : Int32)
  | setFrameRotation (rotation : Int32)
  | frameAvailable
  | dispose (onHandlerThread : Bool)
  /-- A holder of the frame takes another reference to it. -/
  | retain
  /-- A holder gives one back. -/
  | releaseFrame
  /-- The handler takes its next task; the listener may keep references to the frame. -/
  | next (kept : Nat)

namespace Streaming

/-- A new helper. -/
def start : Streaming := ⟨.init, 0, 0, false, 0, []⟩

/-- The latch of the next call, if its thread has to wait. -/
def latch (c : Streaming) (onHandlerThread : Bool) : Option Nat :=
  if onHandlerThread then none else some c.barriers

/-- What an event makes the helper do. -/
def task (c : Streaming) : TextureEvent → HelperTask Unit
  | .startListening => startListening c.started
  | .stopListening onHandlerThread => stopListening (c.latch onHandlerThread)
  | .setTextureSize textureWidth textureHeight => setTextureSize textureWidth textureHeight
  | .setFrameRotation rotation => post (.setFrameRotation rotation)
  | .frameAvailable => post .frameAvailable
  | .dispose onHandlerThread => dispose (c.latch onHandlerThread)
  | .retain => Task.modify fun c => { c with refCount := c.refCount + 1 }
  | .releaseFrame => releaseFrame
  | .next kept =>
    match c.helper.handler with
    | [] => pure ()
    | t :: tasks => do
      Task.modify fun c => { c with handler := tasks }
      runTask kept t

/-- The task has the listener stopped. -/
def stops : TextureTask → Bool
  | .invoked _ .stopListening => true
  | _ => false

/-- Which listeners there are, whether a size has been set, and which calls wait. -/
def book (c : Streaming) : TextureEvent → Streaming
  | .startListening => { c with started := c.started + 1 }
  | .stopListening true => { c with ended := c.started }
  | .stopListening false => { c with barriers := c.barriers + 1 }
  | .dispose false => { c with barriers := c.barriers + 1 }
  | .setTextureSize textureWidth textureHeight =>
    { c with sized := c.sized || decide (0 < textureWidth ∧ 0 < textureHeight) }
  | .next _ =>
    if c.helper.handler.head?.any stops then { c with ended := c.started } else c
  | _ => c

/-- The helper after one event, with the account of it. -/
def step (c : Streaming) (e : TextureEvent) : Streaming :=
  { c.book e with
    helper := ((c.task e).run c.helper).state
    told := c.told ++ ((c.task e).run c.helper).out }

/-- Frames come after a size has been set, and only who holds a frame retains or releases it. -/
def Allowed (c : Streaming) : TextureEvent → Prop
  | .frameAvailable => c.sized = true
  | .retain => 0 < c.helper.refCount
  | .releaseFrame => 0 < c.helper.refCount
  | _ => True

/-! ### The frame in flight -/

/-- The texture is in use exactly as long as somebody holds the frame or its return is posted. -/
structure Held (c : SurfaceTextureHelper) : Prop where
  frame : (if 0 < c.refCount then 1 else 0) + c.handler.count .returned =
    if c.isTextureInUse then 1 else 0
  gone : c.quit = true → c.isQuitting = true ∧ c.isTextureInUse = false ∧ c.handler = []

/-- The texture has a size. -/
def hasSize (c : SurfaceTextureHelper) : Bool := c.textureWidth ≠ 0 && c.textureHeight ≠ 0

/-- The task sets the size of the texture. -/
def setsSize : TextureTask → Bool
  | .setTextureSize _ _ => true
  | _ => false

/-- The size is set before each frame. -/
def Prepared : Bool → List TextureTask → Prop
  | _, [] => True
  | sized, t :: tasks => (t = .frameAvailable → sized = true) ∧ Prepared (sized || setsSize t) tasks

/-- No frame is pending without a size. -/
structure Ready (c : SurfaceTextureHelper) (sized : Bool) : Prop where
  sizes : ∀ w h, .setTextureSize w h ∈ c.handler → w ≠ 0 ∧ h ≠ 0
  pending : c.hasPendingTexture = true → hasSize c = true
  prepared : Prepared (hasSize c) c.handler
  sized : sized = true → c.quit = false → (hasSize c || c.handler.any setsSize) = true

/-- The listeners there are have been set since the last stop. -/
structure Registered (c : SurfaceTextureHelper) (started ended : Nat) : Prop where
  le : ended ≤ started
  listener : ∀ k, c.listener = some k → ended ≤ k ∧ k < started
  pendingListener : ∀ k, c.pendingListener = some k → ended ≤ k ∧ k < started

/-- A frame may be queued last if a size is set by then. -/
theorem prepared_append {sized : Bool} {tasks : List TextureTask} {t : TextureTask} :
    Prepared sized (tasks ++ [t]) ↔
      Prepared sized tasks ∧ (t = .frameAvailable → (sized || tasks.any setsSize) = true) := by
  induction tasks generalizing sized with
  | nil => simp [Prepared]
  | cons t' tasks ih => simp [Prepared, ih, and_assoc, Bool.or_assoc]

/-- Dropping the listener that waits changes no size. -/
theorem Prepared.unlisten {sized : Bool} {tasks : List TextureTask} (h : Prepared sized tasks) :
    Prepared sized (tasks.filter (· ≠ .setListener)) := by
  induction tasks generalizing sized with
  | nil => trivial
  | cons t tasks ih =>
    obtain ⟨hframe, hrest⟩ := h
    by_cases ht : t = .setListener
    · subst ht
      simp only [setsSize, Bool.or_false] at hrest
      rw [List.filter_cons_of_neg (by simp)]
      exact ih hrest
    · rw [List.filter_cons_of_pos (by simpa using ht)]
      exact ⟨hframe, ih hrest⟩

/-- What holds of the helper while it runs a task: when it is quitting, it has released everything
or the texture is in use. -/
structure Settling (c : SurfaceTextureHelper) (started ended : Nat) (sized : Bool) : Prop where
  held : Held c
  quitting : c.isQuitting = true → c.quit = true ∨ c.isTextureInUse = true
  ready : Ready c sized
  registered : Registered c started ended

/-- What holds between tasks: no frame waits for a listener that could have it. -/
structure Steady (c : SurfaceTextureHelper) (started ended : Nat) (sized : Bool) : Prop extends
    Settling c started ended sized where
  idle : c.listener.isSome = true → c.hasPendingTexture = true →
    c.isTextureInUse = true ∨ c.isQuitting = true

variable {c : SurfaceTextureHelper} {started ended : Nat} {sized : Bool}

/-- Nobody holds the frame of a texture that is not in use, and no return is on its way. -/
theorem Held.free (h : Held c) (huse : c.isTextureInUse = false) :
    c.refCount = 0 ∧ c.handler.count .returned = 0 := by
  have hframe := h.frame
  rw [huse, if_neg Bool.false_ne_true, Nat.add_eq_zero_iff] at hframe
  refine ⟨?_, hframe.2⟩
  by_contra hpos
  rw [if_pos (Nat.pos_of_ne_zero hpos)] at hframe
  exact absurd hframe.1 Nat.one_ne_zero

/-- As long as there are tasks the looper has not quit. -/
theorem Held.not_quit (h : Held c) {t : TextureTask} {tasks : List TextureTask}
    (hc : c.handler = t :: tasks) : c.quit = false := by
  by_contra hquit
  rw [(h.gone (by simpa using hquit)).2.2] at hc
  cases hc

namespace Steady

variable (h : Steady c started ended sized)

include h

/-! What a change of the queue keeps. -/

/-- Any task but a return may be queued, if it sets a real size and a frame comes after one. -/
theorem push (hquit : c.quit = false) {t : TextureTask} (ht : t ≠ .returned)
    (hsize : ∀ w h, t = .setTextureSize w h → w ≠ 0 ∧ h ≠ 0)
    (hframe : t = .frameAvailable → sized = true) :
    Steady { c with handler := c.handler ++ [t] } started ended (sized || setsSize t) where
  held := {
    frame := by simpa [List.count_append, List.count_singleton, ht] using h.held.frame
    gone := fun hno => absurd (hquit.symm.trans hno) Bool.false_ne_true }
  quitting := h.quitting
  ready := {
    sizes := fun w h' hw => (List.mem_append.mp hw).elim (h.ready.sizes w h')
      fun hw => hsize w h' (List.mem_singleton.mp hw).symm
    pending := h.ready.pending
    prepared := prepared_append.mpr
      ⟨h.ready.prepared, fun hnew => h.ready.sized (hframe hnew) hquit⟩
    sized := fun hs _ => by
      rw [List.any_append, ← Bool.or_assoc, Bool.or_eq_true]
      obtain hs | hs := (Bool.or_eq_true _ _).mp hs
      · exact .inl (h.ready.sized hs hquit)
      · exact .inr (by simpa using hs) }
  registered := ⟨h.registered.le, h.registered.listener, h.registered.pendingListener⟩
  idle := h.idle

/-- Dropping the listener that waits keeps what holds between tasks. -/
theorem unlisten :
    Steady { c with handler := c.handler.filter (· ≠ .setListener) } started ended sized where
  held := {
    frame := by
      have hcount : (c.handler.filter (· ≠ .setListener)).count .returned =
          c.handler.count .returned := List.count_filter (by decide)
      rw [hcount]
      exact h.held.frame
    gone := fun hquit => by
      obtain ⟨hq, huse, hnil⟩ := h.held.gone hquit
      exact ⟨hq, huse, by rw [hnil, List.filter_nil]⟩ }
  quitting := h.quitting
  ready := {
    sizes := fun w h' hw => h.ready.sizes w h' (List.mem_of_mem_filter hw)
    pending := h.ready.pending
    prepared := h.ready.prepared.unlisten
    sized := fun hs hquit => by
      have hany : (c.handler.filter (· ≠ .setListener)).any setsSize = c.handler.any setsSize := by
        rw [List.any_filter]
        congr 1
        funext t
        cases t <;> rfl
      rw [hany]
      exact h.ready.sized hs hquit }
  registered := ⟨h.registered.le, h.registered.listener, h.registered.pendingListener⟩
  idle := h.idle

theorem pop {t : TextureTask} {tasks : List TextureTask} (hc : c.handler = t :: tasks)
    (ht : t ≠ .returned) (hs : setsSize t = false) :
    Steady { c with handler := tasks } started ended sized where
  held := {
    frame := by
      have hframe := h.held.frame
      rwa [hc, List.count_cons_of_ne ht] at hframe
    gone := fun hno => absurd ((h.held.not_quit hc).symm.trans hno) Bool.false_ne_true }
  quitting := h.quitting
  ready := {
    sizes := fun w h' hw => h.ready.sizes w h' (hc ▸ List.mem_cons_of_mem t hw)
    pending := h.ready.pending
    prepared := by
      have hprepared := h.ready.prepared
      rw [hc, Prepared, hs, Bool.or_false] at hprepared
      exact hprepared.2
    sized := fun hsized hquit => by
      have hany := h.ready.sized hsized hquit
      rwa [hc, List.any_cons, hs, Bool.false_or] at hany }
  registered := ⟨h.registered.le, h.registered.listener, h.registered.pendingListener⟩
  idle := h.idle

/-! What the tasks keep. -/

/-- The size of the texture is set to one that is real. -/
theorem resize {w h' : Int32} {tasks : List TextureTask}
    (hc : c.handler = .setTextureSize w h' :: tasks) :
    Steady { c with handler := tasks, textureWidth := w, textureHeight := h' }
      started ended sized := by
  obtain ⟨hw, hh⟩ := h.ready.sizes w h' (hc ▸ List.mem_cons_self)
  have hsize : hasSize { c with handler := tasks, textureWidth := w, textureHeight := h' } =
      true := by
    simp [hasSize, hw, hh]
  refine ⟨⟨⟨?_, fun hno => ?_⟩, h.quitting, ⟨fun w h' hw => ?_, fun _ => hsize, ?_, fun _ _ => ?_⟩,
    ⟨h.registered.le, h.registered.listener, h.registered.pendingListener⟩⟩, h.idle⟩
  · have hframe := h.held.frame
    rwa [hc, List.count_cons_of_ne (by simp)] at hframe
  · exact absurd ((h.held.not_quit hc).symm.trans hno) Bool.false_ne_true
  · exact h.ready.sizes w h' (hc ▸ List.mem_cons_of_mem _ hw)
  · have hprepared := h.ready.prepared
    rw [hc, Prepared, setsSize, Bool.or_true] at hprepared
    rw [hsize]
    exact hprepared.2
  · rw [hsize, Bool.true_or]

/-- The listener that waits is taken, and a frame pending from before is dropped. -/
theorem listen :
    Steady { c with
      listener := c.pendingListener
      pendingListener := none
      hasPendingTexture := false } started ended sized where
  held := ⟨h.held.frame, h.held.gone⟩
  quitting := h.quitting
  ready := ⟨h.ready.sizes, fun hno => absurd hno Bool.false_ne_true, h.ready.prepared,
    h.ready.sized⟩
  registered := ⟨h.registered.le, h.registered.pendingListener,
    fun _ hk => absurd hk (Option.some_ne_none _).symm⟩
  idle := fun _ hpending => absurd hpending Bool.false_ne_true

/-- Without a listener no listener has to be recent. -/
theorem unset :
    Steady { c with listener := none, pendingListener := none } started started sized where
  held := ⟨h.held.frame, h.held.gone⟩
  quitting := h.quitting
  ready := ⟨h.ready.sizes, h.ready.pending, h.ready.prepared, h.ready.sized⟩
  registered := ⟨le_rfl, fun _ hk => absurd hk (Option.some_ne_none _).symm,
    fun _ hk => absurd hk (Option.some_ne_none _).symm⟩
  idle := fun hno => absurd hno Bool.false_ne_true

/-- The rotation is of no matter here. -/
theorem rotate (rotation : Int32) :
    Steady { c with frameRotation := rotation } started ended sized where
  held := ⟨h.held.frame, h.held.gone⟩
  quitting := h.quitting
  ready := ⟨h.ready.sizes, h.ready.pending, h.ready.prepared, h.ready.sized⟩
  registered := ⟨h.registered.le, h.registered.listener, h.registered.pendingListener⟩
  idle := h.idle

/-- A listener that waits is the most recent one. -/
theorem register :
    Steady { c with pendingListener := some started } (started + 1) ended sized where
  held := ⟨h.held.frame, h.held.gone⟩
  quitting := h.quitting
  ready := ⟨h.ready.sizes, h.ready.pending, h.ready.prepared, h.ready.sized⟩
  registered := {
    le := h.registered.le.trans (Nat.le_succ _)
    listener := fun k hk => ⟨(h.registered.listener k hk).1,
      Nat.lt_succ_of_lt (h.registered.listener k hk).2⟩
    pendingListener := fun k hk => by
      obtain rfl := Option.some.inj hk
      exact ⟨h.registered.le, Nat.lt_succ_self _⟩ }
  idle := h.idle

/-- Another reference to a frame that is held changes nothing. -/
theorem retain (hpos : 0 < c.refCount) :
    Steady { c with refCount := c.refCount + 1 } started ended sized where
  held := {
    frame := by
      have hframe := h.held.frame
      rw [if_pos hpos] at hframe
      simpa using hframe
    gone := h.held.gone }
  quitting := h.quitting
  ready := ⟨h.ready.sizes, h.ready.pending, h.ready.prepared, h.ready.sized⟩
  registered := ⟨h.registered.le, h.registered.listener, h.registered.pendingListener⟩
  idle := h.idle

end Steady

/-- The frame goes to the listener, which keeps some references to it. -/
def delivered (c : SurfaceTextureHelper) (kept : Nat) : SurfaceTextureHelper :=
  { c with
    handler := if kept = 0 then c.handler ++ [.returned] else c.handler
    hasPendingTexture := false
    isTextureInUse := true
    refCount := kept }

/-- A frame that goes to the listener keeps what holds between tasks, however many references are
kept. -/
theorem Settling.delivered (h : Settling c started ended sized) (hquit : c.quit = false)
    (huse : c.isTextureInUse = false) (kept : Nat) :
    Steady (delivered c kept) started ended sized where
  held := {
    frame := by
      have hcount := (h.held.free huse).2
      by_cases hkept : kept = 0
      · simp [Streaming.delivered, hkept, hcount]
      · simp [Streaming.delivered, hkept, hcount, Nat.pos_of_ne_zero hkept]
    gone := fun hno => absurd (hquit.symm.trans hno) Bool.false_ne_true }
  quitting := fun _ => .inr rfl
  ready := {
    sizes := fun w h' hw => by
      simp only [Streaming.delivered] at hw
      split_ifs at hw
      · exact h.ready.sizes w h' (by simpa using hw)
      · exact h.ready.sizes w h' hw
    pending := fun hno => absurd hno Bool.false_ne_true
    prepared := by
      have hprepared : Prepared (hasSize c) (c.handler ++ [.returned]) :=
        prepared_append.mpr ⟨h.ready.prepared, fun hno => by cases hno⟩
      simp only [Streaming.delivered]
      split_ifs
      · exact hprepared
      · exact h.ready.prepared
    sized := fun hs _ => by
      have hany := h.ready.sized hs hquit
      simp only [Streaming.delivered]
      split_ifs
      · rw [List.any_append, ← Bool.or_assoc]
        exact (Bool.or_eq_true _ _).mpr (.inl hany)
      · exact hany }
  registered := ⟨h.registered.le, h.registered.listener, h.registered.pendingListener⟩
  idle := fun _ hno => absurd hno Bool.false_ne_true

/-- Delivering a frame takes a new image and hands it to the listener. -/
theorem run_deliver (hquit : c.quit = false) (hsize : hasSize c = true) (k kept : Nat) :
    (deliver k kept).run c = ⟨.ok (), delivered c kept,
      [.updateTexImage, .onFrame k c.textureWidth c.textureHeight c.frameRotation]⟩ := by
  simp only [hasSize, Bool.and_eq_true, decide_eq_true_eq] at hsize
  by_cases hkept : kept = 0
  · simp [deliver, releaseFrame, returnTextureFrame, post, delivered, hsize, hquit, hkept]
  · simp [deliver, releaseFrame, returnTextureFrame, post, delivered, hsize, hquit, hkept]

/-- Either nothing can be delivered, or the frame goes to the listener. -/
theorem run_tryDeliverTextureFrame (h : Settling c started ended sized) (hquit : c.quit = false)
    (kept : Nat) :
    ((tryDeliverTextureFrame kept).run c = ⟨.ok (), c, []⟩ ∧ Steady c started ended sized) ∨
    ∃ k, c.listener = some k ∧ c.refCount = 0 ∧ (tryDeliverTextureFrame kept).run c =
      ⟨.ok (), delivered c kept,
        [.updateTexImage, .onFrame k c.textureWidth c.textureHeight c.frameRotation]⟩ ∧
      Steady (delivered c kept) started ended sized := by
  cases hlistener : c.listener with
  | none =>
    refine .inl ⟨by simp [tryDeliverTextureFrame, hlistener], h, fun hno => ?_⟩
    rw [hlistener] at hno
    cases hno
  | some k =>
    have hgo : (tryDeliverTextureFrame kept).run c =
        if c.isQuitting || !c.hasPendingTexture || c.isTextureInUse then ⟨.ok (), c, []⟩
        else (deliver k kept).run c := by
      simp only [tryDeliverTextureFrame, Task.run_bind, Task.run_get, Outcome.andThen_ok, hlistener]
      split_ifs <;> rfl
    rw [hgo]
    by_cases hblocked : (c.isQuitting || !c.hasPendingTexture || c.isTextureInUse) = true
    · rw [if_pos hblocked]
      refine .inl ⟨rfl, h, fun _ hpending => ?_⟩
      simpa [hpending, or_comm] using hblocked
    · rw [if_neg hblocked]
      simp only [Bool.or_eq_true, not_or, Bool.not_eq_true, Bool.not_eq_false'] at hblocked
      obtain ⟨⟨-, hpending⟩, hfree⟩ := hblocked
      have hsize := h.ready.pending hpending
      exact .inr ⟨k, rfl, (h.held.free hfree).1, run_deliver hquit hsize k kept,
        h.delivered hquit hfree kept⟩

/-- When the texture is free a helper that is quitting releases everything. -/
theorem Held.released (h : Held c) (hquitting : c.isQuitting = true)
    (huse : c.isTextureInUse = false) (hready : Ready c sized)
    (hregistered : Registered c started ended) :
    Steady { c with quit := true, handler := [] } started ended sized where
  held := {
    frame := by simp [(h.free huse).1, huse]
    gone := fun _ => ⟨hquitting, huse, rfl⟩ }
  quitting := fun _ => .inl rfl
  ready := {
    sizes := fun _ _ hw => absurd hw List.not_mem_nil
    pending := hready.pending
    prepared := trivial
    sized := fun _ hno => absurd hno (Bool.false_ne_true ∘ Eq.symm) }
  registered := ⟨hregistered.le, hregistered.listener, hregistered.pendingListener⟩
  idle := fun _ _ => .inr hquitting

/-! ### Tasks -/

/-- A task that comes to its end, in a state where `Q` holds. It hands out a frame only to the
listener and only when nobody holds one, and releases everything when the looper quits. It takes a
new image under a frame that somebody holds exactly when it `drops` the pending one. -/
structure Ends (c : SurfaceTextureHelper)
    (o : Outcome SurfaceTextureHelper TextureEffect Thrown Unit) (drops : Prop)
    (Q : SurfaceTextureHelper → Prop) : Prop where
  returns : o.value = .ok ()
  state : Q o.state
  released : o.out.count .release + (if c.quit then 1 else 0) = if o.state.quit then 1 else 0
  frames : ∀ k w h r, .onFrame k w h r ∈ o.out → c.refCount = 0 ∧ c.listener = some k
  images : 0 < c.refCount → (.updateTexImage ∈ o.out ↔ drops)

section Tasks

variable {Q : SurfaceTextureHelper → Prop}

/-- A task that emits nothing and leaves the looper as it was. -/
theorem Ends.quiet {s : SurfaceTextureHelper} (hstate : Q s) (hquit : s.quit = c.quit) :
    Ends c ⟨.ok (), s, []⟩ False Q where
  returns := rfl
  state := hstate
  released := by simp [hquit]
  frames := fun _ _ _ _ hno => absurd hno List.not_mem_nil
  images := fun _ => iff_of_false List.not_mem_nil not_false

/-- What a task has done, told from a state with the same looper, frame and listener. -/
theorem Ends.of_same {c' : SurfaceTextureHelper}
    {o : Outcome SurfaceTextureHelper TextureEffect Thrown Unit} {drops : Prop}
    (h : Ends c' o drops Q) (hquit : c'.quit = c.quit) (hrefs : c'.refCount = c.refCount)
    (hlistener : c'.listener = c.listener) : Ends c o drops Q where
  returns := h.returns
  state := h.state
  released := hquit ▸ h.released
  frames := fun k w h' r hmem => by
    rw [← hrefs, ← hlistener]
    exact h.frames k w h' r hmem
  images := hrefs ▸ h.images

/-- The same task, with the condition in other words. -/
theorem Ends.of_drops {o : Outcome SurfaceTextureHelper TextureEffect Thrown Unit}
    {drops drops' : Prop} (h : Ends c o drops Q) (hdrops : drops ↔ drops') : Ends c o drops' Q :=
  ⟨h.returns, h.state, h.released, h.frames, fun hpos => (h.images hpos).trans hdrops⟩

/-- What is posted, but for the return of a frame. -/
theorem ends_post (h : Steady c started ended sized) {t : TextureTask} (ht : t ≠ .returned)
    (hsize : ∀ w h, t = .setTextureSize w h → w ≠ 0 ∧ h ≠ 0)
    (hframe : t = .frameAvailable → sized = true) :
    Ends c ((post t).run c) False (Steady · started ended (sized || setsSize t)) := by
  rw [post, Task.run_modify]
  by_cases hquit : c.quit = true
  · rw [if_pos hquit]
    refine .quiet ⟨⟨h.held, h.quitting, ⟨h.ready.sizes, h.ready.pending, h.ready.prepared, ?_⟩,
      h.registered⟩, h.idle⟩ rfl
    exact fun _ hno => absurd (hno.symm.trans hquit) Bool.false_ne_true
  · rw [if_neg hquit]
    exact .quiet (h.push (by simpa using hquit) ht hsize hframe) rfl

/-- Releasing everything ends the looper, and it happens once. -/
theorem ends_release (h : Held c) (hquit : c.quit = false) (hquitting : c.isQuitting = true)
    (huse : c.isTextureInUse = false) (hready : Ready c sized)
    (hregistered : Registered c started ended) :
    Ends c (release.run c) False (Steady · started ended sized) := by
  have hrun : release.run c = ⟨.ok (), { c with quit := true, handler := [] }, [.release]⟩ := by
    simp [release, huse, hquitting]
  rw [hrun]
  refine ⟨rfl, h.released hquitting huse hready hregistered, ?_, fun k w h r hno => ?_, fun _ => ?_⟩
  · simp [hquit]
  · simp at hno
  · simp

/-- A frame is delivered to a listener that can have it, or waits. -/
theorem ends_tryDeliverTextureFrame (h : Settling c started ended sized) (hquit : c.quit = false)
    (kept : Nat) :
    Ends c ((tryDeliverTextureFrame kept).run c) False (Steady · started ended sized) := by
  obtain ⟨hrun, hsteady⟩ | ⟨k, hk, hfree, hrun, hsteady⟩ := run_tryDeliverTextureFrame h hquit kept
  · rw [hrun]
    exact .quiet hsteady rfl
  · rw [hrun]
    refine ⟨rfl, hsteady, ?_, fun k' w h r hmem => ?_, fun hpos => absurd hfree hpos.ne'⟩
    · simp [delivered, hquit]
    · simp only [List.mem_cons, List.not_mem_nil, or_false, reduceCtorEq, false_or,
        TextureEffect.onFrame.injEq] at hmem
      exact ⟨hfree, hmem.1 ▸ hk⟩

/-- The release of one reference: the last one posts the return of the frame. -/
theorem ends_releaseFrame (h : Steady c started ended sized) (hpos : 0 < c.refCount) :
    Ends c (releaseFrame.run c) False (Steady · started ended sized) := by
  have huse : c.isTextureInUse = true := by
    by_contra hno
    exact absurd (h.held.free (by simpa using hno)).1 hpos.ne'
  have hquit : c.quit = false := by
    by_contra hno
    rw [(h.held.gone (by simpa using hno)).2.1] at huse
    cases huse
  have hcount : c.handler.count .returned = 0 := by
    have hframe := h.held.frame
    rw [if_pos hpos, huse, if_pos rfl] at hframe
    omega
  have hgone : ∀ {P : Prop}, c.quit = true → P :=
    fun hno => absurd (hquit.symm.trans hno) Bool.false_ne_true
  by_cases hlast : c.refCount - 1 = 0
  · have hrun : releaseFrame.run c = ⟨.ok (), { c with
        handler := c.handler ++ [.returned], refCount := 0 }, []⟩ := by
      simp [releaseFrame, returnTextureFrame, post, hlast, hquit]
    rw [hrun]
    refine .quiet ⟨⟨⟨?_, hgone⟩, h.quitting, ⟨fun w h' hw => ?_, h.ready.pending, ?_, ?_⟩,
      ⟨h.registered.le, h.registered.listener, h.registered.pendingListener⟩⟩, h.idle⟩ rfl
    · simp [List.count_append, hcount, huse]
    · exact h.ready.sizes w h' (by simpa using hw)
    · exact prepared_append.mpr ⟨h.ready.prepared, fun hno => by cases hno⟩
    · intro hs hq
      rw [List.any_append, ← Bool.or_assoc]
      exact (Bool.or_eq_true _ _).mpr (.inl (h.ready.sized hs hq))
  · have hrun : releaseFrame.run c = ⟨.ok (), { c with refCount := c.refCount - 1 }, []⟩ := by
      simp [releaseFrame, hlast]
    rw [hrun]
    refine .quiet ⟨⟨⟨?_, hgone⟩, h.quitting,
      ⟨h.ready.sizes, h.ready.pending, h.ready.prepared, h.ready.sized⟩,
      ⟨h.registered.le, h.registered.listener, h.registered.pendingListener⟩⟩, h.idle⟩ rfl
    simp only [hcount, huse, if_pos (Nat.pos_of_ne_zero hlast), if_true]

/-- The return of a frame frees the texture, and then delivers the next frame or releases
everything. -/
theorem ends_returned (h : Steady c started ended sized) (kept : Nat) {tasks : List TextureTask}
    (hc : c.handler = .returned :: tasks) :
    Ends c ((runTask kept .returned).run { c with handler := tasks }) False
      (Steady · started ended sized) := by
  have hquit := h.held.not_quit hc
  have hframe := h.held.frame
  rw [hc, List.count_cons_self] at hframe
  have hfree : (if 0 < c.refCount then 1 else 0) + tasks.count .returned = 0 := by
    split_ifs at hframe ⊢ <;> omega
  have hheld : Held { c with handler := tasks, isTextureInUse := false } :=
    ⟨hfree, fun hno => absurd (hquit.symm.trans hno) Bool.false_ne_true⟩
  have hready : Ready { c with handler := tasks, isTextureInUse := false } sized := by
    obtain ⟨hsizes, hpending, hprepared, hsized⟩ := h.ready
    rw [hc] at hsizes hprepared hsized
    refine ⟨fun w h' hw => hsizes w h' (List.mem_cons_of_mem _ hw), hpending, ?_, hsized⟩
    have hnone : setsSize .returned = false := rfl
    rw [Prepared, hnone, Bool.or_false] at hprepared
    exact hprepared.2
  have hregistered : Registered { c with handler := tasks, isTextureInUse := false }
      started ended :=
    ⟨h.registered.le, h.registered.listener, h.registered.pendingListener⟩
  simp only [runTask, Task.run_bind, Task.run_modify, Task.run_get, Outcome.andThen_ok]
  by_cases hquitting : c.isQuitting = true
  · rw [if_pos hquitting]
    exact .of_same (ends_release hheld hquit hquitting rfl hready hregistered) rfl rfl rfl
  · rw [if_neg hquitting]
    have hsettling : Settling { c with handler := tasks, isTextureInUse := false }
        started ended sized := ⟨hheld, fun hno => absurd hno hquitting, hready, hregistered⟩
    exact .of_same (ends_tryDeliverTextureFrame hsettling hquit kept) rfl rfl rfl

/-- A `dispose` releases everything unless the frame is held. -/
theorem ends_dispose (h : Steady c started ended sized) (hquit : c.quit = false) :
    Ends c ((call .dispose).run c) False (Steady · started ended sized) := by
  have hheld : Held { c with isQuitting := true } :=
    ⟨h.held.frame, fun hno => absurd (hquit.symm.trans hno) Bool.false_ne_true⟩
  have hready : Ready { c with isQuitting := true } sized :=
    ⟨h.ready.sizes, h.ready.pending, h.ready.prepared, h.ready.sized⟩
  have hregistered : Registered { c with isQuitting := true } started ended :=
    ⟨h.registered.le, h.registered.listener, h.registered.pendingListener⟩
  simp only [call, Task.run_bind, Task.run_modify, Task.run_whenever, Outcome.andThen_ok]
  by_cases huse : c.isTextureInUse = true
  · rw [if_neg (by simp [huse])]
    exact .quiet ⟨⟨hheld, fun _ => .inr huse, hready, hregistered⟩, fun _ _ => .inr rfl⟩ rfl
  · rw [Bool.not_eq_true] at huse
    rw [if_pos (by simp [huse])]
    exact .of_same (ends_release hheld hquit rfl huse hready hregistered) rfl rfl rfl

/-- The callables, as long as the looper runs. -/
theorem ends_call (h : Steady c started ended sized) (callable : TextureCallable)
    (hquit : callable = .dispose → c.quit = false) :
    Ends c ((call callable).run c) False
      (Steady · started (if callable = .stopListening then started else ended) sized) := by
  cases callable with
  | stopListening => exact .quiet h.unset rfl
  | dispose => exact ends_dispose h (hquit rfl)

/-- To count a latch down is none of the things that are told of a task. -/
theorem Ends.counted {o : Outcome SurfaceTextureHelper TextureEffect Thrown Unit} {drops : Prop}
    (h : Ends c o drops Q) (barrier : Nat) (caught : Except Thrown Unit) :
    Ends c ⟨.ok (), o.state, o.out ++ [.countDown barrier caught]⟩ drops Q where
  returns := rfl
  state := h.state
  released := by simpa [List.count_append, List.count_singleton] using h.released
  frames := fun k w h' r hmem => h.frames k w h' r (by simpa using hmem)
  images := fun hpos => by simpa using h.images hpos

/-- Every queued task comes to its end. -/
theorem ends_runTask (h : Steady c started ended sized) (kept : Nat) {t : TextureTask}
    {tasks : List TextureTask} (hc : c.handler = t :: tasks) :
    Ends c ((runTask kept t).run { c with handler := tasks })
      (t = .setListener ∧ c.hasPendingTexture = true)
      (Steady · started (if stops t then started else ended) sized) := by
  have hquit := h.held.not_quit hc
  cases t with
  | setListener =>
    have hlisten := (h.pop hc (by simp) rfl).listen
    simp only [runTask, Task.run_bind, Task.run_modify, Task.run_whenever, Outcome.andThen_ok]
    by_cases hpending : c.hasPendingTexture = true
    · rw [if_pos hpending]
      exact ⟨rfl, hlisten, by simp [hquit], fun k w h r hno => by simp at hno,
        fun _ => by simp [hpending]⟩
    · rw [if_neg hpending]
      rw [Bool.not_eq_true] at hpending
      rw [← hpending] at hlisten
      exact .of_drops (.quiet hlisten rfl) (by simp [hpending])
  | setTextureSize w h' => exact .of_drops (.quiet (h.resize hc) rfl) (by simp)
  | setFrameRotation rotation =>
    exact .of_drops (.quiet ((h.pop hc (by simp) rfl).rotate rotation) rfl) (by simp)
  | frameAvailable =>
    have hsize : hasSize c = true := by
      have hprepared := h.ready.prepared
      rw [hc] at hprepared
      exact hprepared.1 rfl
    obtain ⟨⟨hheld, hquitting, hready, hregistered⟩, -⟩ := h.pop hc (by simp) rfl
    have hsettling : Settling { c with handler := tasks, hasPendingTexture := true }
        started ended sized :=
      ⟨⟨hheld.frame, hheld.gone⟩, hquitting,
        ⟨hready.sizes, fun _ => hsize, hready.prepared, hready.sized⟩,
        ⟨hregistered.le, hregistered.listener, hregistered.pendingListener⟩⟩
    have hends := ends_tryDeliverTextureFrame hsettling hquit kept
    exact .of_drops (.of_same hends rfl rfl rfl) (by simp)
  | returned => exact (ends_returned h kept hc).of_drops (by simp)
  | invoked barrier callable =>
    have hends := (ends_call (h.pop hc (by simp) rfl) callable fun _ => hquit).counted barrier
      (.ok ())
    rw [run_invoked]
    cases callable <;> exact .of_drops (.of_same hends rfl rfl rfl) (by simp)

end Tasks

/-! ### Runs -/

/-- The calls that the helper refuses. -/
def Refused (c : Streaming) : TextureEvent → Prop
  | .startListening => c.helper.listener.isSome = true ∨ c.helper.pendingListener.isSome = true
  | .setTextureSize textureWidth textureHeight => textureWidth ≤ 0 ∨ textureHeight ≤ 0
  | _ => False

/-- A listener is set while a frame of the session before it is pending. -/
def Drops (c : Streaming) : TextureEvent → Prop
  | .next _ => c.helper.handler.head? = some .setListener ∧ c.helper.hasPendingTexture = true
  | _ => False

/-- A refused call raises and leaves no trace. -/
theorem refused_raises {c : Streaming} {e : TextureEvent} (h : c.Refused e) :
    ∃ t, (c.task e).run c.helper = ⟨.error t, c.helper, []⟩ := by
  cases e with
  | startListening =>
    have hset : (c.helper.listener.isSome || c.helper.pendingListener.isSome) = true :=
      (Bool.or_eq_true _ _).mpr h
    refine ⟨.illegalState "SurfaceTextureHelper listener has already been set.", ?_⟩
    simp only [task, startListening, Task.run_bind, Task.run_whenever, hset, if_true,
      Task.run_raise, Outcome.andThen_error]
  | setTextureSize w h' =>
    simp only [task, setTextureSize]
    by_cases hw : w ≤ 0
    · rw [if_pos hw]
      exact ⟨_, rfl⟩
    · rw [if_neg hw, if_pos (h.resolve_left hw)]
      exact ⟨_, rfl⟩
  | _ => exact h.elim

/-- What is posted without setting the size. -/
theorem ends_posted (h : Steady c started ended sized) {t : TextureTask} (ht : t ≠ .returned)
    (hs : setsSize t = false) (hframe : t = .frameAvailable → sized = true) :
    Ends c ((post t).run c) False (Steady · started ended sized) := by
  have hsize : ∀ w h, t = .setTextureSize w h → w ≠ 0 ∧ h ≠ 0 := by
    rintro w h rfl
    cases hs
  have hends := ends_post h ht hsize hframe
  rwa [hs, Bool.or_false] at hends

/-- A listener that is not refused is set up on the handler. -/
theorem ends_startListening {c : Streaming}
    (h : Steady c.helper c.started c.ended c.sized) (hcall : ¬ c.Refused .startListening) :
    Ends c.helper ((startListening c.started).run c.helper) False
      (Steady · (c.started + 1) c.ended c.sized) := by
  have hnone : (c.helper.listener.isSome || c.helper.pendingListener.isSome) = false := by
    simpa [Refused] using hcall
  have hrun : (startListening c.started).run c.helper =
      (post .setListener).run { c.helper with pendingListener := some c.started } := by
    simp only [startListening, post, Task.run_bind, Task.run_whenever, hnone, Task.run_modify,
      Outcome.andThen_ok, Bool.false_eq_true, if_false, List.nil_append]
  rw [hrun]
  have hends := ends_posted h.register (t := .setListener) (by simp) rfl (by simp)
  exact .of_same hends rfl rfl rfl

/-- A stop on the handler thread is done at once, and one of another thread is queued. -/
theorem ends_stopListening {c : Streaming} (h : Steady c.helper c.started c.ended c.sized)
    (onHandlerThread : Bool) :
    Ends c.helper ((stopListening (c.latch onHandlerThread)).run c.helper) False
      (Steady · (c.book (.stopListening onHandlerThread)).started
        (c.book (.stopListening onHandlerThread)).ended
        (c.book (.stopListening onHandlerThread)).sized) := by
  simp only [stopListening, Task.run_bind, Task.run_modify, Outcome.andThen_ok, List.nil_append]
  cases onHandlerThread with
  | false =>
    have hends := ends_posted h.unlisten (t := .invoked c.barriers .stopListening) (by simp) rfl
      (by simp)
    exact .of_same hends rfl rfl rfl
  | true =>
    have hends := ends_call h.unlisten .stopListening (by simp)
    rw [latch, if_pos rfl, run_invokeAtFront_none]
    exact .of_same hends rfl rfl rfl

/-- The texture is disposed of, by the thread of the handler, after its looper has quit. -/
def DisposesAgain (c : Streaming) (e : TextureEvent) : Prop :=
  e = .dispose true ∧ c.helper.quit = true

/-- Disposing of a helper whose looper has quit changes nothing. -/
theorem Held.disposed (h : Held c) (hquit : c.quit = true) : c.disposed = c := by
  obtain ⟨hquitting, hfree, hnil⟩ := h.gone hquit
  rw [SurfaceTextureHelper.disposed, if_neg (by simp [hfree])]
  cases c
  cases hquit
  cases hquitting
  cases hnil
  rfl

/-- Everything is released once more then, and nothing else changes. -/
theorem run_disposesAgain {c : Streaming} {e : TextureEvent} (h : Held c.helper)
    (hagain : c.DisposesAgain e) : (c.task e).run c.helper = ⟨.ok (), c.helper, [.release]⟩ := by
  obtain ⟨rfl, hquit⟩ := hagain
  rw [task, latch, if_pos rfl, dispose, run_invokeAtFront_none, run_call_dispose, h.disposed hquit,
    if_neg (by simp [(h.gone hquit).2.1])]

/-- A size is queued if it is one. -/
theorem ends_setTextureSize {c : Streaming} (h : Steady c.helper c.started c.ended c.sized)
    {width height : Int32} (hcall : ¬ c.Refused (.setTextureSize width height)) :
    Ends c.helper ((setTextureSize width height).run c.helper) False
      (Steady · c.started c.ended (c.sized || decide (0 < width ∧ 0 < height))) := by
  obtain ⟨hwidth, hheight⟩ := not_or.mp hcall
  rw [setTextureSize, if_neg hwidth, if_neg hheight,
    decide_eq_true ⟨Int32.not_le.mp hwidth, Int32.not_le.mp hheight⟩]
  refine ends_post h (by simp) (fun w h' hsame => ?_) (by simp)
  cases hsame
  exact ⟨fun hzero => hwidth (hzero ▸ Int32.le_rfl), fun hzero => hheight (hzero ▸ Int32.le_rfl)⟩

/-- What is called and not refused, and what the handler takes, comes to its end. -/
theorem ends_task {c : Streaming} {e : TextureEvent}
    (h : Steady c.helper c.started c.ended c.sized) (hok : c.Allowed e) (hcall : ¬ c.Refused e)
    (hagain : ¬ c.DisposesAgain e) :
    Ends c.helper ((c.task e).run c.helper) (c.Drops e)
      (Steady · (c.book e).started (c.book e).ended (c.book e).sized) := by
  cases e with
  | startListening => exact ends_startListening h hcall
  | stopListening onHandlerThread => exact ends_stopListening h onHandlerThread
  | setTextureSize w h' => exact ends_setTextureSize h hcall
  | setFrameRotation rotation => exact ends_posted h (by simp) rfl (by simp)
  | frameAvailable => exact ends_posted h (by simp) rfl fun _ => hok
  | dispose onHandlerThread =>
    cases onHandlerThread with
    | false => exact ends_posted h (by simp) rfl (by simp)
    | true =>
      have hquit : c.helper.quit = false := by
        by_contra hno
        exact hagain ⟨rfl, by simpa using hno⟩
      rw [task, latch, if_pos rfl, dispose, run_invokeAtFront_none]
      exact ends_dispose h hquit
  | retain => exact .quiet (h.retain hok) rfl
  | releaseFrame => exact ends_releaseFrame h hok
  | next kept =>
    cases hc : c.helper.handler with
    | nil =>
      simp only [task, hc, Task.run_pure, book, List.head?_nil, Option.any_none,
        Bool.false_eq_true, if_false]
      exact .of_drops (.quiet h rfl) (by simp [Drops, hc])
    | cons t tasks =>
      have hends := ends_runTask h kept hc
      simp only [task, hc, Task.run_bind, Task.run_modify, Outcome.andThen_ok, List.nil_append,
        book, List.head?_cons, Option.any_some]
      by_cases ht : stops t = true
      · rw [if_pos ht] at hends ⊢
        exact hends.of_drops (by simp [Drops, hc])
      · rw [if_neg ht] at hends ⊢
        exact hends.of_drops (by simp [Drops, hc])

/-- What holds in every state of a run. -/
def Sound (c : Streaming) : Prop := Steady c.helper c.started c.ended c.sized

/-- A refused call is not booked. -/
theorem Steady.refused {c : Streaming} {e : TextureEvent}
    (h : Steady c.helper c.started c.ended c.sized) (hcall : c.Refused e) :
    Steady c.helper (c.book e).started (c.book e).ended (c.book e).sized := by
  cases e with
  | startListening =>
    refine ⟨⟨h.held, h.quitting, h.ready, h.registered.le.trans (Nat.le_succ _), ?_, ?_⟩, h.idle⟩
    · exact fun k hk => (h.registered.listener k hk).imp_right Nat.lt_succ_of_lt
    · exact fun k hk => (h.registered.pendingListener k hk).imp_right Nat.lt_succ_of_lt
  | setTextureSize w h' =>
    have hbad : decide (0 < w ∧ 0 < h') = false :=
      decide_eq_false fun hgood => hcall.elim (Int32.not_le.mpr hgood.1) (Int32.not_le.mpr hgood.2)
    simpa only [book, hbad, Bool.or_false] using h
  | _ => exact hcall.elim

/-- The three ways an event can go: it is refused and changes nothing, it releases everything once
more, or it comes to its end. -/
theorem Sound.cases {c : Streaming} {e : TextureEvent} (h : c.Sound) (hok : c.Allowed e) :
    (c.Refused e ∧ ∃ t, (c.task e).run c.helper = ⟨.error t, c.helper, []⟩) ∨
      (c.DisposesAgain e ∧ ¬ c.Refused e ∧
        (c.task e).run c.helper = ⟨.ok (), c.helper, [.release]⟩) ∨
      ¬ c.DisposesAgain e ∧ ¬ c.Refused e ∧
        Ends c.helper ((c.task e).run c.helper) (c.Drops e)
          (Steady · (c.book e).started (c.book e).ended (c.book e).sized) := by
  by_cases hcall : c.Refused e
  · exact .inl ⟨hcall, refused_raises hcall⟩
  · by_cases hagain : c.DisposesAgain e
    · exact .inr (.inl ⟨hagain, hcall, run_disposesAgain h.held hagain⟩)
    · exact .inr (.inr ⟨hagain, hcall, ends_task h hok hcall hagain⟩)

/-- Every allowed event keeps the account right. -/
theorem Sound.step {c : Streaming} {e : TextureEvent} (h : c.Sound) (hok : c.Allowed e) :
    (c.step e).Sound := by
  rw [Streaming.step]
  obtain ⟨hcall, t, hrun⟩ | ⟨⟨rfl, -⟩, -, hrun⟩ | ⟨-, -, hends⟩ := h.cases hok
  · rw [hrun]
    exact Steady.refused h hcall
  · rw [hrun]
    exact h
  · exact hends.state

theorem sound_start : start.Sound where
  held := ⟨rfl, fun hno => absurd hno Bool.false_ne_true⟩
  quitting := fun hno => absurd hno Bool.false_ne_true
  ready := ⟨fun _ _ hno => absurd hno List.not_mem_nil, fun hno => absurd hno Bool.false_ne_true,
    trivial, fun hno => absurd hno Bool.false_ne_true⟩
  registered := ⟨le_rfl, fun _ hk => absurd hk (Option.some_ne_none _).symm,
    fun _ hk => absurd hk (Option.some_ne_none _).symm⟩
  idle := fun hno => absurd hno Bool.false_ne_true

/-- Every state of an allowed run is sound. -/
theorem sound_throughout {es : List TextureEvent} (h : Along step Allowed start es) :
    Throughout step Sound start es :=
  h.throughout (fun _ _ hc hok => hc.step hok) sound_start

/-- A frame is still held when the next listener is set, and another one is pending. -/
def frameRun : List TextureEvent :=
  [.setTextureSize 640 480, .startListening, .next 0, .next 0, .frameAvailable, .next 1,
    .frameAvailable, .next 0, .stopListening false, .next 0, .startListening, .next 0,
    .releaseFrame, .next 0, .dispose true]

/-- The calls, frames and references of the run come in an allowed order. -/
theorem frameRun_allowed : Along step Allowed start frameRun := by
  refine ⟨trivial, trivial, trivial, trivial, ?_, trivial, ?_, trivial, trivial, trivial, trivial,
    trivial, ?_, trivial, trivial, trivial⟩
  · rfl
  · rfl
  · exact Nat.zero_lt_one

/-- **One frame at a time.** In every run a frame is handed out only when nobody holds one, and only
to a listener that has been set and not stopped since. -/
theorem one_frame_at_a_time (es : List TextureEvent) (h : Along step Allowed start es) :
    Along step (fun c e => ∀ k w h r, .onFrame k w h r ∈ ((c.task e).run c.helper).out →
      c.helper.refCount = 0 ∧ c.ended ≤ k ∧ k < c.started) start es := by
  refine (sound_throughout h).along (fun c e hc hok k w h r hmem => ?_) h
  obtain ⟨-, t, hrun⟩ | ⟨-, -, hrun⟩ | ⟨-, -, hends⟩ := hc.cases hok
  · rw [hrun] at hmem
    exact absurd hmem List.not_mem_nil
  · simp [hrun] at hmem
  · obtain ⟨hfree, hlistener⟩ := hends.frames k w h r hmem
    exact ⟨hfree, hc.registered.listener k hlistener⟩

/-- In the run no frame is handed out under another one. -/
theorem one_frame_at_a_time_held :
    Along step (fun c e => ∀ k w h r, .onFrame k w h r ∈ ((c.task e).run c.helper).out →
      c.helper.refCount = 0 ∧ c.ended ≤ k ∧ k < c.started) start frameRun :=
  one_frame_at_a_time _ frameRun_allowed

/-- **When a held frame changes.** In every run the image under a frame that somebody holds is
replaced exactly when a listener is set while a frame is pending. -/
theorem overwritten_iff (es : List TextureEvent) (h : Along step Allowed start es) :
    Along step (fun c e => 0 < c.helper.refCount →
      (.updateTexImage ∈ ((c.task e).run c.helper).out ↔ c.Drops e)) start es := by
  refine (sound_throughout h).along (fun c e hc hok hheld => ?_) h
  obtain ⟨hcall, t, hrun⟩ | ⟨⟨-, hquit⟩, -⟩ | ⟨-, -, hends⟩ := hc.cases hok
  · rw [hrun]
    cases e with
    | next kept => exact hcall.elim
    | _ => exact iff_of_false List.not_mem_nil id
  · exact absurd (hc.held.free (hc.held.gone hquit).2.1).1 hheld.ne'
  · exact hends.images hheld

/-- In the run the one image that is overwritten is dropped on purpose. -/
theorem overwritten_iff_held :
    Along step (fun c e => 0 < c.helper.refCount →
      (.updateTexImage ∈ ((c.task e).run c.helper).out ↔ c.Drops e)) start frameRun :=
  overwritten_iff _ frameRun_allowed

/-- The second listener of the run changes the frame that the first one holds. -/
example : ((frameRun.take 11).foldl step start).helper.refCount = 1 ∧
    .updateTexImage ∈ ((runTask 0 .setListener).run
      ((frameRun.take 11).foldl step start).helper).out := by
  decide

/-- Everything has been released once if the looper has quit, and not yet otherwise. -/
def ReleasedOnce (c : Streaming) : Prop :=
  c.told.count .release = if c.helper.quit then 1 else 0

/-- Everything has been released once as long as nobody disposes of a helper that is gone. -/
theorem Sound.releasedOnce_iff {c : Streaming} {e : TextureEvent} (h : c.Sound)
    (hc : c.ReleasedOnce) (hok : c.Allowed e) :
    (c.step e).ReleasedOnce ↔ ¬ c.DisposesAgain e := by
  rw [ReleasedOnce, Streaming.step]
  simp only
  rw [List.count_append, hc]
  obtain ⟨hcall, t, hrun⟩ | ⟨hagain, -, hrun⟩ | ⟨hagain, -, hends⟩ := h.cases hok
  · have hnot : ¬ c.DisposesAgain e := by
      rintro ⟨rfl, -⟩
      exact hcall
    simp [hrun, hnot]
  · -- once when the looper quit, and now again
    simp [hrun, hagain, hagain.2]
  · simp only [hagain, not_false_iff, iff_true]
    rw [Nat.add_comm]
    exact hends.released

/-- **Released once.** In every run everything is released when the looper quits, and at no other
time exactly as long as the thread of the handler does not dispose of the texture after that. The
looper never quits while somebody holds a frame, and always once the helper is quitting and the
texture free. -/
theorem texture_released_once (es : List TextureEvent) (h : Along step Allowed start es) :
    (Throughout step ReleasedOnce start es ↔
      Along step (fun c e => ¬ c.DisposesAgain e) start es) ∧
    Throughout step (fun c =>
      (c.helper.quit = true → c.helper.refCount = 0 ∧ c.helper.isTextureInUse = false) ∧
      (c.helper.isQuitting = true ∧ c.helper.isTextureInUse = false → c.helper.quit = true))
      start es := by
  constructor
  · exact throughout_iff_along (fun _ _ hc hok => hc.step hok)
      (fun _ _ hc hq hok => hc.releasedOnce_iff hq hok) sound_start rfl h
  · refine (sound_throughout h).imp fun c hc => ⟨fun hquit => ?_, fun ⟨hquitting, hfree⟩ => ?_⟩
    · obtain ⟨-, hfree, -⟩ := hc.held.gone hquit
      exact ⟨(hc.held.free hfree).1, hfree⟩
    · refine (hc.quitting hquitting).resolve_right fun huse => ?_
      rw [hfree] at huse
      cases huse

/-- In the run everything is released when the looper quits. -/
theorem texture_released_once_held :
    (Throughout step ReleasedOnce start frameRun ↔
      Along step (fun c e => ¬ c.DisposesAgain e) start frameRun) ∧
    Throughout step (fun c =>
      (c.helper.quit = true → c.helper.refCount = 0 ∧ c.helper.isTextureInUse = false) ∧
      (c.helper.isQuitting = true ∧ c.helper.isTextureInUse = false → c.helper.quit = true))
      start frameRun :=
  texture_released_once _ frameRun_allowed

/-- Two calls in one task of the handler release everything twice. -/
example : ([.dispose true, .dispose true].foldl step start).told.count .release = 2 := by decide

/-- **No frame waits.** In every run the texture is in use exactly while somebody holds the frame or
its return is posted, and a frame is pending for a listener only while the texture is in use or the
helper quitting. -/
theorem no_frame_waits (es : List TextureEvent) (h : Along step Allowed start es) :
    Throughout step (fun c =>
      (c.helper.isTextureInUse = true ↔ 0 < c.helper.refCount ∨ .returned ∈ c.helper.handler) ∧
      (c.helper.listener.isSome = true → c.helper.hasPendingTexture = true →
        c.helper.isTextureInUse = true ∨ c.helper.isQuitting = true)) start es := by
  refine (sound_throughout h).imp fun c hc => ⟨⟨fun huse => ?_, fun hheld => ?_⟩, hc.idle⟩
  · by_contra hno
    obtain ⟨hrefs, hposted⟩ := not_or.mp hno
    have hframe := hc.held.frame
    rw [huse, if_neg hrefs, List.count_eq_zero_of_not_mem hposted] at hframe
    exact absurd hframe Nat.zero_ne_one
  · by_contra hno
    obtain ⟨hrefs, hposted⟩ := hc.held.free (Bool.not_eq_true _ ▸ hno)
    exact hheld.elim (fun hpos => absurd hrefs hpos.ne')
      fun hmem => List.count_eq_zero.mp hposted hmem

/-- In the run a frame waits only for the one that is held. -/
theorem no_frame_waits_held :
    Throughout step (fun c =>
      (c.helper.isTextureInUse = true ↔ 0 < c.helper.refCount ∨ .returned ∈ c.helper.handler) ∧
      (c.helper.listener.isSome = true → c.helper.hasPendingTexture = true →
        c.helper.isTextureInUse = true ∨ c.helper.isQuitting = true)) start frameRun :=
  no_frame_waits _ frameRun_allowed

/-- What is not refused comes to its end; what is refused raises and changes nothing. -/
theorem Sound.returns_iff {c : Streaming} {e : TextureEvent} (h : c.Sound) (hok : c.Allowed e) :
    (((c.task e).run c.helper).value = .ok () ↔ ¬ c.Refused e) ∧
      (c.Refused e → ((c.task e).run c.helper).state = c.helper ∧
        ((c.task e).run c.helper).out = []) := by
  obtain ⟨hcall, t, hrun⟩ | ⟨-, hcall, hrun⟩ | ⟨-, hcall, hends⟩ := h.cases hok
  · rw [hrun]
    exact ⟨iff_of_false (fun hno => by cases hno) (not_not_intro hcall), fun _ => ⟨rfl, rfl⟩⟩
  · rw [hrun]
    exact ⟨iff_of_true rfl hcall, fun hno => absurd hno hcall⟩
  · exact ⟨iff_of_true hends.returns hcall, fun hno => absurd hno hcall⟩

end Streaming

end WebrtcCaller.Media
