import Mathlib.Data.List.TakeWhile

/-!
# Executor tasks whose effects survive a raise

A task runs to its end or to a raise. In both cases the state it has reached
and everything it has emitted so far remain: a raise ends the task and rolls
nothing back. The loop rules below give the exact output of a broadcast, with
and without a member on which the loop body raises.
-/

namespace WebrtcCaller

/-- What a finished task leaves behind. -/
structure Outcome (σ ω ε α : Type) where
  /-- The returned value, or the raise that ended the task. -/
  value : Except ε α
  state : σ
  /-- Everything emitted, in order, up to the end or the raise. -/
  out : List ω

/-- A task over the state `σ` that emits `ω`, raises `ε` and returns `α`. -/
def Task (σ ω ε α : Type) : Type := σ → Outcome σ ω ε α

namespace Task

variable {σ ω ε α β : Type}

/-- Run a task from a state. -/
def run (t : Task σ ω ε α) (s : σ) : Outcome σ ω ε α := t s

end Task

/-- Continue with `f` after a normal end; a raise is final. -/
def Outcome.andThen {σ ω ε α β : Type} (o : Outcome σ ω ε α) (f : α → Task σ ω ε β) :
    Outcome σ ω ε β :=
  match o.value with
  | .ok a => ⟨((f a).run o.state).value, ((f a).run o.state).state,
      o.out ++ ((f a).run o.state).out⟩
  | .error e => ⟨.error e, o.state, o.out⟩

namespace Task

variable {σ ω ε α β : Type}

/-- Tasks run one after the other; a raise ends the whole of it. -/
instance : Monad (Task σ ω ε) where
  pure a := fun s => ⟨.ok a, s, []⟩
  bind t f := fun s => (t.run s).andThen f

/-- End the task. -/
def raise (e : ε) : Task σ ω ε α := fun s => ⟨.error e, s, []⟩

/-- Read the state. -/
def get : Task σ ω ε σ := fun s => ⟨.ok s, s, []⟩

/-- Update the state. -/
def modify (f : σ → σ) : Task σ ω ε Unit := fun s => ⟨.ok (), f s, []⟩

/-- Emit one item. -/
def emit (w : ω) : Task σ ω ε Unit := fun s => ⟨.ok (), s, [w]⟩

/-- A pure computation that may raise. -/
def ofExcept (x : Except ε α) : Task σ ω ε α := fun s => ⟨x, s, []⟩

/-- Swallow a raise, keeping the effects made before it. -/
def swallow (t : Task σ ω ε Unit) : Task σ ω ε Unit :=
  fun s => ⟨.ok (), (t.run s).state, (t.run s).out⟩

/-- `try`: how the task ended, as a value. -/
def attempt (t : Task σ ω ε α) : Task σ ω ε (Except ε α) :=
  fun s => ⟨.ok (t.run s).value, (t.run s).state, (t.run s).out⟩

/-- `if (c) t`. -/
def whenever (c : σ → Bool) (t : Task σ ω ε Unit) : Task σ ω ε Unit :=
  fun s => if c s then t.run s else ⟨.ok (), s, []⟩

/-- `if (x != null) t(x)`. -/
def whenSome (x : σ → Option α) (t : α → Task σ ω ε Unit) : Task σ ω ε Unit :=
  fun s => (x s).elim ⟨.ok (), s, []⟩ fun a => (t a).run s

@[simp] theorem run_pure (a : α) (s : σ) :
    (pure a : Task σ ω ε α).run s = ⟨.ok a, s, []⟩ := rfl

@[simp] theorem run_bind (t : Task σ ω ε α) (f : α → Task σ ω ε β) (s : σ) :
    (t >>= f).run s = (t.run s).andThen f := rfl

@[simp] theorem run_raise (e : ε) (s : σ) :
    (raise e : Task σ ω ε α).run s = ⟨.error e, s, []⟩ := rfl

@[simp] theorem run_get (s : σ) : (get : Task σ ω ε σ).run s = ⟨.ok s, s, []⟩ := rfl

@[simp] theorem run_modify (f : σ → σ) (s : σ) :
    (modify f : Task σ ω ε Unit).run s = ⟨.ok (), f s, []⟩ := rfl

@[simp] theorem run_emit (w : ω) (s : σ) :
    (emit w : Task σ ω ε Unit).run s = ⟨.ok (), s, [w]⟩ := rfl

@[simp] theorem run_ofExcept (x : Except ε α) (s : σ) :
    (ofExcept x : Task σ ω ε α).run s = ⟨x, s, []⟩ := rfl

@[simp] theorem run_swallow (t : Task σ ω ε Unit) (s : σ) :
    (swallow t).run s = ⟨.ok (), (t.run s).state, (t.run s).out⟩ := rfl

@[simp] theorem run_attempt (t : Task σ ω ε α) (s : σ) :
    t.attempt.run s = ⟨.ok (t.run s).value, (t.run s).state, (t.run s).out⟩ := rfl

@[simp] theorem run_whenever (c : σ → Bool) (t : Task σ ω ε Unit) (s : σ) :
    (whenever c t).run s = if c s then t.run s else ⟨.ok (), s, []⟩ := rfl

@[simp] theorem run_whenSome (x : σ → Option α) (t : α → Task σ ω ε Unit) (s : σ) :
    (whenSome x t).run s = (x s).elim ⟨.ok (), s, []⟩ fun a => (t a).run s := rfl

end Task

@[simp] theorem Outcome.andThen_ok {σ ω ε α β : Type} (a : α) (s : σ) (o : List ω)
    (f : α → Task σ ω ε β) :
    (⟨.ok a, s, o⟩ : Outcome σ ω ε α).andThen f =
      ⟨((f a).run s).value, ((f a).run s).state, o ++ ((f a).run s).out⟩ := rfl

@[simp] theorem Outcome.andThen_error {σ ω ε α β : Type} (e : ε) (s : σ) (o : List ω)
    (f : α → Task σ ω ε β) :
    (⟨.error e, s, o⟩ : Outcome σ ω ε α).andThen f = ⟨.error e, s, o⟩ := rfl

/-- Going on twice is going on with the bind. -/
theorem Outcome.andThen_assoc {σ ω ε α β γ : Type} (o : Outcome σ ω ε α) (f : α → Task σ ω ε β)
    (g : β → Task σ ω ε γ) : (o.andThen f).andThen g = o.andThen fun a => f a >>= g := by
  obtain ⟨value, state, out⟩ := o
  cases value with
  | error e => rfl
  | ok a =>
    simp only [Outcome.andThen_ok, Task.run_bind]
    generalize (f a).run state = next
    obtain ⟨value, state, out'⟩ := next
    cases value with
    | error e => rfl
    | ok b => simp

theorem Task.bind_assoc {σ ω ε α β γ : Type} (t : Task σ ω ε α) (f : α → Task σ ω ε β)
    (g : β → Task σ ω ε γ) : t >>= f >>= g = t >>= fun a => f a >>= g :=
  funext fun s => Outcome.andThen_assoc (t.run s) f g

/-- What has been emitted stays emitted, however the task goes on. -/
theorem Outcome.mem_andThen {σ ω ε α β : Type} {o : Outcome σ ω ε α} {w : ω} (h : w ∈ o.out)
    (f : α → Task σ ω ε β) : w ∈ (o.andThen f).out := by
  obtain ⟨value, state, out⟩ := o
  cases value with
  | error e => exact h
  | ok a => exact List.mem_append_left _ h

/-- A loop runs its body for the first element and then for the others. -/
theorem Task.run_forM_cons {σ ω ε α : Type} (f : α → Task σ ω ε PUnit) (x : α) (xs : List α)
    (s : σ) : ((x :: xs).forM f).run s = ((f x).run s).andThen fun _ => xs.forM f := rfl

/-- A loop whose body leaves the state alone emits what its passes do, in order. -/
theorem Task.run_forM_emit {σ ω ε α : Type} {f : α → Task σ ω ε PUnit} {out : α → List ω} {s : σ}
    (hbody : ∀ a, (f a).run s = ⟨.ok ⟨⟩, s, out a⟩) (xs : List α) :
    (xs.forM f).run s = ⟨.ok ⟨⟩, s, xs.flatMap out⟩ := by
  induction xs with
  | nil => rfl
  | cons a xs ih => rw [Task.run_forM_cons, hbody, Outcome.andThen_ok, ih, List.flatMap_cons]

/-- A loop whose body skips some elements, raises `e` on others and otherwise
emits one item: it emits up to the first element it raises on, and leaves the
state alone. -/
theorem Task.run_foldlM_emit {σ ω ε α β : Type} {body : β → α → Task σ ω ε β}
    {skip bad : α → Bool} {next : β → α → β} {item : α → ω} {e : ε}
    (hbody : ∀ b a s, (body b a).run s =
      if skip a then ⟨.ok b, s, []⟩
      else if bad a then ⟨.error e, s, []⟩ else ⟨.ok (next b a), s, [item a]⟩)
    (xs : List α) (b : β) (s : σ) :
    (xs.foldlM body b).run s =
      ⟨if (xs.filter (!skip ·)).any bad then .error e
        else .ok ((xs.filter (!skip ·)).foldl next b), s,
        ((xs.filter (!skip ·)).takeWhile (!bad ·)).map item⟩ := by
  induction xs generalizing b with
  | nil => rfl
  | cons a xs ih =>
    rw [List.foldlM_cons, Task.run_bind, hbody]
    by_cases hs : skip a = true
    · simp [hs, ih]
    · by_cases hb : bad a = true
      · simp [hs, hb]
      · simp [hs, hb, ih]

end WebrtcCaller
