import WebrtcCaller.Core.Task

/-!
# Pre- and postconditions of tasks

A triple gives the states a task may start in, what holds when it returns, what
holds when it raises, and what every emitted item satisfies. A task that cannot
raise has the exit condition `False`. There is one rule for each way of
building a task.
-/

namespace WebrtcCaller

variable {σ ω ε α β : Type}

/-- What holds of a finished task. -/
structure Outcome.Meets (o : Outcome σ ω ε α) (Q : α → σ → Prop) (E : σ → Prop)
    (W : ω → Prop) : Prop where
  returned : ∀ a, o.value = .ok a → Q a o.state
  raised : ∀ e, o.value = .error e → E o.state
  emitted : ∀ w ∈ o.out, W w

/-- A task that returns `a` and emits nothing. -/
theorem Outcome.Meets.silent {Q : α → σ → Prop} {E : σ → Prop} {W : ω → Prop} {a : α} {s : σ}
    (h : Q a s) : (⟨.ok a, s, []⟩ : Outcome σ ω ε α).Meets Q E W := by
  refine ⟨?_, ?_, ?_⟩
  · intro a' ha
    obtain rfl := Except.ok.inj ha
    exact h
  · intro e he
    cases he
  · intro w hw
    cases hw

/-- From `P` the task returns in `Q` or raises in `E`, and emits only `W`. -/
def Task.Triple (P : σ → Prop) (t : Task σ ω ε α) (Q : α → σ → Prop) (E : σ → Prop)
    (W : ω → Prop) : Prop :=
  ∀ s, P s → (t.run s).Meets Q E W

namespace Task.Triple

variable {P R : σ → Prop} {t : Task σ ω ε α} {Q : α → σ → Prop} {E : σ → Prop} {W : ω → Prop}

/-- A task that cannot raise returns. -/
theorem returns (h : Triple P t Q (fun _ => False) W) {s : σ} (hs : P s) :
    ∃ a, (t.run s).value = .ok a ∧ Q a (t.run s).state := by
  cases hv : (t.run s).value with
  | error e => exact ((h s hs).raised e hv).elim
  | ok a => exact ⟨a, rfl, (h s hs).returned a hv⟩

/-- A condition met at every end holds in the last state. -/
theorem state (h : Triple P t (fun _ => R) R W) {s : σ} (hs : P s) : R (t.run s).state := by
  cases hv : (t.run s).value with
  | error e => exact (h s hs).raised e hv
  | ok a => exact (h s hs).returned a hv

/-- The rule of consequence, for the precondition and for all three postconditions. -/
theorem conseq {P' : σ → Prop} {Q' : α → σ → Prop} {E' : σ → Prop} {W' : ω → Prop}
    (h : Triple P t Q E W) (hP : ∀ s, P' s → P s) (hQ : ∀ a s, Q a s → Q' a s)
    (hE : ∀ s, E s → E' s) (hW : ∀ w, W w → W' w) : Triple P' t Q' E' W' := by
  intro s hs
  have hm := h s (hP s hs)
  exact ⟨fun a ha => hQ a _ (hm.returned a ha), fun e he => hE _ (hm.raised e he),
    fun w hw => hW w (hm.emitted w hw)⟩

/-- Start from less. -/
theorem pre {P' : σ → Prop} (h : Triple P t Q E W) (hP : ∀ s, P' s → P s) :
    Triple P' t Q E W :=
  h.conseq hP (fun _ _ hq => hq) (fun _ he => he) fun _ hw => hw

/-- Conclude less about the returned state. -/
theorem post {Q' : α → σ → Prop} (h : Triple P t Q E W) (hQ : ∀ a s, Q a s → Q' a s) :
    Triple P t Q' E W :=
  h.conseq (fun _ hp => hp) hQ (fun _ he => he) fun _ hw => hw

/-- A value that is returned changes nothing. -/
theorem pure {a : α} (h : ∀ s, P s → Q a s) : Triple P (Pure.pure a : Task σ ω ε α) Q E W :=
  fun s hs => .silent (h s hs)

/-- The rule of sequence: a raise of either task is one of both. -/
theorem bind {f : α → Task σ ω ε β} {Q' : β → σ → Prop} (ht : Triple P t Q E W)
    (hf : ∀ a, Triple (Q a) (f a) Q' E W) : Triple P (t >>= f) Q' E W := by
  intro s hs
  have hm := ht s hs
  rw [Task.run_bind]
  generalize t.run s = o at hm
  obtain ⟨value, state, out⟩ := o
  cases value with
  | error e =>
    refine ⟨nofun, fun e' _ => hm.raised e rfl, hm.emitted⟩
  | ok a =>
    have hn := hf a state (hm.returned a rfl)
    refine ⟨hn.returned, hn.raised, fun w hw => ?_⟩
    rcases List.mem_append.mp hw with hw | hw
    · exact hm.emitted w hw
    · exact hn.emitted w hw

/-- The state read is the state there is. -/
theorem get_bind {f : σ → Task σ ω ε α} (h : ∀ s, P s → Triple (· = s) (f s) Q E W) :
    Triple P (Task.get >>= f) Q E W := by
  intro s hs
  simpa [Task.run_bind] using h s hs s rfl

/-- The rule of assignment. -/
theorem modify {f : σ → σ} {Q : Unit → σ → Prop} (h : ∀ s, P s → Q () (f s)) :
    Triple P (Task.modify f : Task σ ω ε Unit) Q E W :=
  fun s hs => .silent (h s hs)

/-- An output is one that is promised. -/
theorem emit {w : ω} {Q : Unit → σ → Prop} (hw : W w) (h : ∀ s, P s → Q () s) :
    Triple P (Task.emit w : Task σ ω ε Unit) Q E W := by
  intro s hs
  refine ⟨fun _ _ => h s hs, nofun, fun w' hw' => ?_⟩
  rw [Task.run_emit, List.mem_singleton] at hw'
  exact hw' ▸ hw

/-- A raise promises nothing but its own postcondition. -/
theorem raise {e : ε} (h : ∀ s, P s → E s) : Triple P (Task.raise e : Task σ ω ε α) Q E W := by
  intro s hs
  refine ⟨nofun, fun _ _ => h s hs, nofun⟩

/-- A computed value is either returned or raised. -/
theorem ofExcept {x : Except ε α} (hok : ∀ a s, P s → x = .ok a → Q a s)
    (herr : ∀ e s, P s → x = .error e → E s) :
    Triple P (Task.ofExcept x : Task σ ω ε α) Q E W := by
  intro s hs
  refine ⟨fun a ha => hok a s hs ha, fun e he => herr e s hs he, nofun⟩

/-- What is swallowed leaves only its postcondition, which both ways out have to reach. -/
theorem swallow {t : Task σ ω ε Unit} (h : Triple P t (fun _ => R) R W) :
    Triple P (Task.swallow t) (fun _ => R) E W := by
  intro s hs
  exact ⟨fun _ _ => h.state hs, nofun, (h s hs).emitted⟩

/-- The rule of the conditional, with one branch. -/
theorem whenever {c : σ → Bool} {t : Task σ ω ε Unit} {Q : Unit → σ → Prop}
    (ht : Triple (fun s => P s ∧ c s = true) t Q E W) (hskip : ∀ s, P s → c s = false → Q () s) :
    Triple P (Task.whenever c t) Q E W := by
  intro s hs
  rw [Task.run_whenever]
  cases hc : c s with
  | true => exact ht s ⟨hs, hc⟩
  | false => exact .silent (hskip s hs hc)

/-- The rule of the conditional on a reference that may be null. -/
theorem whenSome {x : σ → Option α} {t : α → Task σ ω ε Unit} {Q : Unit → σ → Prop}
    (ht : ∀ a, Triple (fun s => P s ∧ x s = some a) (t a) Q E W)
    (hskip : ∀ s, P s → x s = none → Q () s) : Triple P (Task.whenSome x t) Q E W := by
  intro s hs
  rw [Task.run_whenSome]
  cases hx : x s with
  | some a => exact ht a s ⟨hs, hx⟩
  | none => exact .silent (hskip s hs hx)

/-- A loop keeps what its body keeps. -/
theorem forM {xs : List α} {f : α → Task σ ω ε PUnit}
    (h : ∀ x ∈ xs, Triple P (f x) (fun _ => P) E W) :
    Triple P (xs.forM f) (fun _ => P) E W := by
  induction xs with
  | nil => exact Triple.pure fun _ hs => hs
  | cons x xs ih =>
    change Triple P (f x >>= fun _ => xs.forM f) _ _ _
    exact (h x (List.mem_cons_self ..)).bind fun _ =>
      ih fun y hy => h y (List.mem_cons_of_mem _ hy)

end Task.Triple

/-- The task keeps `I`, whether it returns or raises, and emits only `W`. -/
def Task.Keeps (I : σ → Prop) (W : ω → Prop) (t : Task σ ω ε α) : Prop :=
  Task.Triple I t (fun _ => I) I W

namespace Task.Keeps

variable {I : σ → Prop} {W : ω → Prop} {t : Task σ ω ε α}

/-- A value that is returned keeps everything. -/
theorem pure {a : α} : Keeps I W (Pure.pure a : Task σ ω ε α) := Triple.pure fun _ hs => hs

/-- Two tasks that keep an invariant keep it together. -/
theorem bind {f : α → Task σ ω ε β} (ht : Keeps I W t) (hf : ∀ a, Keeps I W (f a)) :
    Keeps I W (t >>= f) := Triple.bind ht hf

theorem get : Keeps I W (Task.get : Task σ ω ε σ) := fun _ hs => .silent hs

/-- A modification keeps what it maps into itself. -/
theorem modify {f : σ → σ} (h : ∀ s, I s → I (f s)) :
    Keeps I W (Task.modify f : Task σ ω ε Unit) := Triple.modify h

theorem emit {w : ω} (hw : W w) : Keeps I W (Task.emit w : Task σ ω ε Unit) :=
  Triple.emit hw fun _ hs => hs

theorem raise {e : ε} : Keeps I W (Task.raise e : Task σ ω ε α) := Triple.raise fun _ hs => hs

theorem ofExcept {x : Except ε α} : Keeps I W (Task.ofExcept x : Task σ ω ε α) :=
  Triple.ofExcept (fun _ _ hs _ => hs) fun _ _ hs _ => hs

/-- Swallowing a task keeps what the task keeps. -/
theorem swallow {t : Task σ ω ε Unit} (h : Keeps I W t) : Keeps I W (Task.swallow t) :=
  Triple.swallow h

/-- A conditional task keeps what its branch keeps. -/
theorem whenever {c : σ → Bool} {t : Task σ ω ε Unit} (h : Keeps I W t) :
    Keeps I W (Task.whenever c t) :=
  Triple.whenever (Triple.pre h fun _ hs => hs.1) fun _ hs _ => hs

/-- A task on a reference keeps what it keeps for every value of it. -/
theorem whenSome {x : σ → Option α} {t : α → Task σ ω ε Unit} (h : ∀ a, Keeps I W (t a)) :
    Keeps I W (Task.whenSome x t) :=
  Triple.whenSome (fun a => Triple.pre (h a) fun _ hs => hs.1) fun _ hs _ => hs

/-- A loop keeps what its body keeps. -/
theorem forM {xs : List α} {f : α → Task σ ω ε PUnit} (h : ∀ x, Keeps I W (f x)) :
    Keeps I W (xs.forM f) := Triple.forM fun x _ => h x

end Task.Keeps

end WebrtcCaller
