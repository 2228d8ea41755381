import WebrtcCaller.Media.Frames

/-!
# Who waits for the handler

A thread that calls `stopListening` or `dispose` goes on when the handler has run its callable and
counted its latch down. The latches are counted down in the order of the calls as long as the looper
runs. When it quits, the calls that are still queued are lost, and so are all that come later.
-/

namespace WebrtcCaller.Media

open SurfaceTextureHelper

/-- The latch that the task will count down. -/
def TextureTask.barrier : TextureTask → Option Nat
  | .invoked barrier _ => some barrier
  | _ => none

/-- The latch that is counted down. -/
def TextureEffect.barrier : TextureEffect → Option Nat
  | .countDown barrier _ => some barrier
  | _ => none

/-- The latches of the queued tasks, in order. -/
def SurfaceTextureHelper.queued (c : SurfaceTextureHelper) : List Nat :=
  c.handler.filterMap TextureTask.barrier

/-- The latches that are counted down, in order. -/
def counted (out : List TextureEffect) : List Nat := out.filterMap TextureEffect.barrier

theorem counted_append (out out' : List TextureEffect) :
    counted (out ++ out') = counted out ++ counted out' := List.filterMap_append

theorem mem_counted {out : List TextureEffect} {b : Nat} {caught : Except Thrown Unit}
    (h : .countDown b caught ∈ out) : b ∈ counted out := List.mem_filterMap.mpr ⟨_, h, rfl⟩

/-! ### Tasks that count nothing down -/

/-- The queued latches stay queued, or the looper has quit. -/
def Keeps (c c' : SurfaceTextureHelper) : Prop :=
  c'.quit = c.quit ∧ c'.queued = c.queued ∨ c'.quit = true ∧ c'.queued = []

theorem Keeps.refl (c : SurfaceTextureHelper) : Keeps c c := .inl ⟨rfl, rfl⟩

theorem Keeps.trans {c c' c'' : SurfaceTextureHelper} (h : Keeps c c') (h' : Keeps c' c'') :
    Keeps c c'' := by
  obtain ⟨hquit', hqueued'⟩ | hover := h'
  · rw [Keeps, hquit', hqueued']
    exact h
  · exact .inr hover

/-- The task counts no latch down and keeps those that are queued. -/
def Silent {α : Type} (t : HelperTask α) : Prop :=
  ∀ c, counted (t.run c).out = [] ∧ Keeps c (t.run c).state

namespace Silent

variable {α β : Type}

theorem of_pure (a : α) : Silent (pure a : HelperTask α) := fun c => ⟨rfl, .refl c⟩

theorem get : Silent (Task.get : HelperTask SurfaceTextureHelper) := fun c => ⟨rfl, .refl c⟩

/-- Raising counts nothing down. -/
theorem raise (e : Thrown) : Silent (Task.raise e : HelperTask α) := fun c => ⟨rfl, .refl c⟩

/-- An effect that names no latch counts none down. -/
theorem emit {e : TextureEffect} (h : e.barrier = none) : Silent (Task.emit e : HelperTask Unit) :=
  fun c => ⟨List.filterMap_cons_none h, .refl c⟩

/-- A modification that keeps the queued latches counts nothing down. -/
theorem modify {f : SurfaceTextureHelper → SurfaceTextureHelper} (h : ∀ c, Keeps c (f c)) :
    Silent (Task.modify f : HelperTask Unit) := fun c => ⟨rfl, h c⟩

/-- Fields that are neither the queue nor the end of the looper may change. -/
theorem modify_fields {f : SurfaceTextureHelper → SurfaceTextureHelper}
    (hquit : ∀ c, (f c).quit = c.quit) (hhandler : ∀ c, (f c).handler = c.handler) :
    Silent (Task.modify f : HelperTask Unit) := by
  refine modify fun c => .inl ⟨hquit c, ?_⟩
  rw [queued, hhandler, queued]

/-- Two silent tasks are silent together. -/
theorem bind {t : HelperTask α} {f : α → HelperTask β} (ht : Silent t) (hf : ∀ a, Silent (f a)) :
    Silent (t >>= f) := by
  intro c
  obtain ⟨hout, hkeeps⟩ := ht c
  rw [Task.run_bind]
  generalize t.run c = o at hout hkeeps
  obtain ⟨value, state, out⟩ := o
  cases value with
  | error e => exact ⟨hout, hkeeps⟩
  | ok a =>
    obtain ⟨hout', hkeeps'⟩ := hf a state
    rw [Outcome.andThen_ok]
    refine ⟨?_, hkeeps.trans hkeeps'⟩
    rw [counted_append, hout', List.append_nil]
    exact hout

/-- A conditional task is as silent as its branch. -/
theorem whenever {p : SurfaceTextureHelper → Bool} {t : HelperTask Unit} (ht : Silent t) :
    Silent (Task.whenever p t) := by
  intro c
  rw [Task.run_whenever]
  split_ifs
  · exact ht c
  · exact ⟨rfl, .refl c⟩

end Silent

/-- What is posted stays behind the others, unless the looper has quit. -/
theorem queued_post (t : TextureTask) (c : SurfaceTextureHelper) :
    ((post t).run c).state.quit = c.quit ∧ ((post t).run c).state.queued =
      if c.quit then c.queued else c.queued ++ t.barrier.toList := by
  rw [post, Task.run_modify]
  cases hquit : c.quit with
  | true => simp [hquit]
  | false => cases ht : t.barrier <;> simp [queued, List.filterMap_append, ht]

/-- A task without a latch may be posted silently. -/
theorem silent_post {t : TextureTask} (ht : t.barrier = none) : Silent (post t) := by
  intro c
  obtain ⟨hquit, hqueued⟩ := queued_post t c
  refine ⟨rfl, .inl ⟨hquit, ?_⟩⟩
  rw [hqueued, ht, Option.toList_none, List.append_nil, ite_self]

/-- Giving a frame back is silent. -/
theorem silent_releaseFrame : Silent releaseFrame :=
  .bind (.modify_fields (fun _ => rfl) fun _ => rfl) fun _ => .whenever (silent_post rfl)

theorem silent_tryDeliverTextureFrame (kept : Nat) : Silent (tryDeliverTextureFrame kept) := by
  refine .bind .get fun c => ?_
  split
  · exact .of_pure ()
  · split
    · exact .of_pure ()
    · refine .bind (.modify_fields (fun _ => rfl) fun _ => rfl) fun _ =>
        .bind (.emit rfl) fun _ => .bind .get fun c => ?_
      split
      · exact .raise _
      · exact .bind (.modify_fields (fun _ => rfl) fun _ => rfl) fun _ => .bind (.emit rfl)
          fun _ => .bind (.modify_fields (fun _ => rfl) fun _ => rfl) fun _ => silent_releaseFrame

/-- Releasing everything is silent; it drops the queued tasks with their latches. -/
theorem silent_release : Silent release :=
  .bind (.whenever (.raise _)) fun _ => .bind (.emit rfl) fun _ =>
    .modify fun _ => .inr ⟨rfl, rfl⟩

/-- What a call comes down to is silent, whoever waits for it. -/
theorem silent_call (callable : TextureCallable) : Silent (call callable) := by
  cases callable with
  | stopListening => exact .modify_fields (fun _ => rfl) fun _ => rfl
  | dispose =>
    exact .bind (.modify_fields (fun _ => rfl) fun _ => rfl) fun _ => .whenever silent_release

/-- A task that no thread waits for. -/
theorem silent_runTask (kept : Nat) {t : TextureTask} (ht : t.barrier = none) :
    Silent (runTask kept t) := by
  cases t with
  | setListener =>
    exact .bind (.modify_fields (fun _ => rfl) fun _ => rfl) fun _ => .whenever
      (.bind (.emit rfl) fun _ => .modify_fields (fun _ => rfl) fun _ => rfl)
  | setTextureSize w h => exact .modify_fields (fun _ => rfl) fun _ => rfl
  | setFrameRotation rotation => exact .modify_fields (fun _ => rfl) fun _ => rfl
  | frameAvailable =>
    exact .bind (.modify_fields (fun _ => rfl) fun _ => rfl) fun _ =>
      silent_tryDeliverTextureFrame kept
  | returned =>
    refine .bind (.modify_fields (fun _ => rfl) fun _ => rfl) fun _ => .bind .get fun c => ?_
    split
    · exact silent_release
    · exact silent_tryDeliverTextureFrame kept
  | invoked barrier callable => cases ht

namespace Streaming

/-! ### Events -/

/-- What an event does to the latches: nothing, or one more call waits, or the first one that is
queued has been answered. -/
inductive Latched (c : Streaming) (e : TextureEvent)
    (o : Outcome SurfaceTextureHelper TextureEffect Thrown Unit) : Prop
  | silent : counted o.out = [] → Keeps c.helper o.state → (c.book e).barriers = c.barriers →
      Latched c e o
  | waits : o.out = [] → o.state.quit = c.helper.quit →
      o.state.queued = (if c.helper.quit then c.helper.queued
        else c.helper.queued ++ [c.barriers]) →
      (c.book e).barriers = c.barriers + 1 → Latched c e o
  | answered {b : Nat} {rest : List Nat} : c.helper.queued = b :: rest →
      counted o.out = [b] → (∀ b' caught, .countDown b' caught ∈ o.out → caught = .ok ()) →
      (o.state.quit = c.helper.quit ∧ o.state.queued = rest ∨
        o.state.quit = true ∧ o.state.queued = []) →
      (c.book e).barriers = c.barriers → Latched c e o

variable {c : Streaming} {e : TextureEvent}

/-- A silent event queues no latch and counts none down. -/
theorem Latched.of_silent {t : HelperTask Unit} (ht : Silent t)
    (hbook : (c.book e).barriers = c.barriers) : Latched c e (t.run c.helper) :=
  .silent (ht c.helper).1 (ht c.helper).2 hbook

/-- The latches do not see a listener that is taken out of the queue. -/
theorem queued_unlisten (c : SurfaceTextureHelper) :
    queued { c with handler := c.handler.filter (· ≠ .setListener) } = c.queued := by
  have hnone : ∀ t : TextureTask, ¬ decide (t ≠ .setListener) = true → t.barrier = none := by
    intro t ht
    obtain rfl : t = .setListener := by simpa using ht
    rfl
  rw [queued, List.filterMap_filter, queued]
  apply List.filterMap_congr
  intro t _
  by_cases ht : decide (t ≠ .setListener) = true
  · rw [if_pos ht]
  · rw [if_neg ht, hnone t ht]

/-- Dropping the listener that waits is silent. -/
theorem silent_unlisten : Silent (Task.modify fun c : SurfaceTextureHelper =>
    { c with handler := c.handler.filter (· ≠ .setListener) }) :=
  .modify fun c => .inl ⟨rfl, queued_unlisten c⟩

/-- A call on the handler thread has no latch. -/
theorem silent_invokeAtFront_none (callable : TextureCallable) :
    Silent (invokeAtFront none callable) := by
  intro c
  rw [run_invokeAtFront_none]
  exact silent_call callable c

/-- A call from another thread is posted with the next latch, unless the looper has quit. -/
theorem latched_post {callable : TextureCallable} {helper : SurfaceTextureHelper}
    (hquit : helper.quit = c.helper.quit) (hqueued : helper.queued = c.helper.queued)
    (hbook : (c.book e).barriers = c.barriers + 1) :
    Latched c e ((post (.invoked c.barriers callable)).run helper) := by
  obtain ⟨hquit', hqueued'⟩ := queued_post (.invoked c.barriers callable) helper
  rw [hquit, hqueued] at hqueued'
  exact .waits rfl (hquit'.trans hquit) hqueued' hbook

/-- The next task counts its own latch down. -/
theorem latched_next (kept : Nat) :
    Latched c (.next kept) ((c.task (.next kept)).run c.helper) := by
  have hbook : (c.book (.next kept)).barriers = c.barriers := by
    rw [book]
    split_ifs <;> rfl
  cases hc : c.helper.handler with
  | nil =>
    simp only [task, hc]
    exact .of_silent (.of_pure ()) hbook
  | cons t tasks =>
    simp only [task, hc, Task.run_bind, Task.run_modify, Outcome.andThen_ok, List.nil_append]
    cases ht : t.barrier with
    | none =>
      obtain ⟨hout, hkeeps⟩ := silent_runTask kept ht { c.helper with handler := tasks }
      have hqueued : queued { c.helper with handler := tasks } = c.helper.queued := by
        rw [queued, queued, hc, List.filterMap_cons_none ht]
      have hpop : Keeps c.helper { c.helper with handler := tasks } := .inl ⟨rfl, hqueued⟩
      exact .silent hout (hpop.trans hkeeps) hbook
    | some b =>
      cases t with
      | invoked barrier callable =>
        obtain rfl := Option.some.inj ht
        obtain ⟨hout, hkeeps⟩ := silent_call callable { c.helper with handler := tasks }
        have hqueued : c.helper.queued = barrier :: tasks.filterMap TextureTask.barrier := by
          rw [queued, hc, List.filterMap_cons_some ht]
        rw [run_invoked]
        refine .answered hqueued ?_ (fun b' caught hmem => ?_) hkeeps hbook
        · rw [counted_append, hout]
          rfl
        · obtain hmem | hmem := List.mem_append.mp hmem
          · have hno := mem_counted hmem
            rw [hout] at hno
            cases hno
          · exact (TextureEffect.countDown.inj (List.mem_singleton.mp hmem)).2
      | _ => cases ht

variable (c e) in
/-- Every event does one of the three to the latches. -/
theorem latched_task : Latched c e ((c.task e).run c.helper) := by
  cases e with
  | startListening =>
    exact .of_silent (.bind (.whenever (.raise _)) fun _ =>
      .bind (.modify_fields (fun _ => rfl) fun _ => rfl) fun _ => silent_post rfl) rfl
  | stopListening onHandlerThread =>
    cases onHandlerThread with
    | true =>
      exact .of_silent (.bind silent_unlisten fun _ => silent_invokeAtFront_none _) rfl
    | false => exact latched_post rfl (queued_unlisten c.helper) rfl
  | setTextureSize w h =>
    refine .of_silent ?_ rfl
    rw [task, setTextureSize]
    split_ifs
    · exact .raise _
    · exact .raise _
    · exact silent_post rfl
  | setFrameRotation rotation => exact .of_silent (silent_post rfl) rfl
  | frameAvailable => exact .of_silent (silent_post rfl) rfl
  | dispose onHandlerThread =>
    cases onHandlerThread with
    | true => exact .of_silent (silent_invokeAtFront_none _) rfl
    | false => exact latched_post rfl rfl rfl
  | retain => exact .of_silent (.modify_fields (fun _ => rfl) fun _ => rfl) rfl
  | releaseFrame => exact .of_silent silent_releaseFrame rfl
  | next kept => exact latched_next kept

/-! ### Runs -/

/-- The calls of other threads: those that have returned, in order, those whose tasks are queued,
and those that are lost, of which there are none as long as the looper runs. When it has quit, no
task is queued. -/
def Accounted (c : Streaming) : Prop :=
  ∃ lost, counted c.told ++ c.helper.queued ++ lost = List.range c.barriers ∧
    (c.helper.quit = false → lost = []) ∧ (c.helper.quit = true → c.helper.queued = [])

/-- Every event keeps account of the latches. -/
theorem Accounted.step (h : c.Accounted) (e : TextureEvent) : (c.step e).Accounted := by
  obtain ⟨lost, hcalls, hrunning, hover⟩ := h
  have hlatched := latched_task c e
  unfold Accounted Streaming.step
  simp only
  generalize (c.task e).run c.helper = o at hlatched
  rw [counted_append]
  cases hlatched with
  | silent hout hkeeps hbook =>
    rw [hout, hbook, List.append_nil]
    obtain ⟨hquit, hqueued⟩ | ⟨hquit, hqueued⟩ := hkeeps
    · rw [hquit, hqueued]
      exact ⟨lost, hcalls, hrunning, hover⟩
    · -- the looper has quit, and what was queued is lost
      refine ⟨c.helper.queued ++ lost, ?_, fun hno => ?_, fun _ => hqueued⟩
      · rw [hqueued, List.append_nil, ← List.append_assoc, hcalls]
      · rw [hquit] at hno
        cases hno
  | waits hout hquit hqueued hbook =>
    rw [hout, hbook, hquit, hqueued, List.range_succ, ← hcalls]
    cases hq : c.helper.quit with
    | true =>
      refine ⟨lost ++ [c.barriers], ?_, fun hno => (by cases hno), fun _ => hover hq⟩
      simp [counted]
    | false =>
      refine ⟨[], ?_, fun _ => rfl, fun hno => (by cases hno)⟩
      simp [counted, hrunning hq]
  | @answered b rest hqueue hout _ hkeeps hbook =>
    have hq : c.helper.quit = false := by
      by_contra hno
      have hnil := hover (by simpa using hno)
      rw [hqueue] at hnil
      cases hnil
    rw [hout, hbook, ← hcalls, hqueue, hrunning hq]
    obtain ⟨hquit, hqueued⟩ | ⟨hquit, hqueued⟩ := hkeeps
    · refine ⟨[], by simp [hqueued], fun _ => rfl, fun hno => ?_⟩
      rw [hquit, hq] at hno
      cases hno
    · refine ⟨rest, by simp [hqueued], fun hno => ?_, fun _ => hqueued⟩
      rw [hquit] at hno
      cases hno

theorem accounted_start : start.Accounted := ⟨[], rfl, fun _ => rfl, fun _ => rfl⟩

/-- Who returns does so without a raise, and while the looper runs. -/
theorem Accounted.returned (h : c.Accounted) {b : Nat} {caught : Except Thrown Unit}
    (hmem : .countDown b caught ∈ ((c.task e).run c.helper).out) :
    caught = .ok () ∧ c.helper.quit = false := by
  obtain ⟨-, -, -, hover⟩ := h
  have hlatched := latched_task c e
  generalize (c.task e).run c.helper = o at hlatched hmem
  cases hlatched with
  | silent hout =>
    have hno := mem_counted hmem
    rw [hout] at hno
    cases hno
  | waits hout =>
    rw [hout] at hmem
    cases hmem
  | answered hqueue _ hcaught =>
    refine ⟨hcaught b caught hmem, ?_⟩
    by_contra hno
    have hnil := hover (by simpa using hno)
    rw [hqueue] at hnil
    cases hnil

/-- The looper quits over a call that is still queued. -/
def lostRun : List TextureEvent := [.stopListening false, .next 0, .dispose false,
  .stopListening false, .next 0, .dispose false]

/-- Of the four calls the first two return, and the other two wait for ever. -/
example : counted (lostRun.foldl step start).told = [0, 1] ∧
    (lostRun.foldl step start).barriers = 4 ∧
    (lostRun.foldl step start).helper.quit = true := by
  decide

end Streaming

end WebrtcCaller.Media
