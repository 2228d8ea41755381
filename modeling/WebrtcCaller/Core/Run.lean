import Mathlib.Data.List.Basic

/-!
# Runs of a step function

A run is a list of inputs. `Along` speaks about every step of a run, seen from
the state before it; `Throughout` about every state a run passes through. The
rules below turn one-step facts into facts about whole runs.
-/

namespace WebrtcCaller

variable {σ ι : Type*}

/-- `P` holds of every step of the run, given the state before the step. -/
def Along (step : σ → ι → σ) (P : σ → ι → Prop) : σ → List ι → Prop
  | _, [] => True
  | s, x :: xs => P s x ∧ Along step P (step s x) xs

/-- `Q` holds in every state of the run, the first and the last included. -/
def Throughout (step : σ → ι → σ) (Q : σ → Prop) : σ → List ι → Prop
  | s, [] => Q s
  | s, x :: xs => Q s ∧ Throughout step Q (step s x) xs

/-- The states reached from `init` by runs all of whose steps are allowed. -/
inductive Reachable (step : σ → ι → σ) (ok : σ → ι → Prop) (init : σ) : σ → Prop
  | init : Reachable step ok init init
  | step {s : σ} {x : ι} : Reachable step ok init s → ok s x →
      Reachable step ok init (step s x)

/-- Everything the steps of a run put out, in order. -/
def outputs {ω : Type*} (step : σ → ι → σ) (out : σ → ι → List ω) : σ → List ι → List ω
  | _, [] => []
  | s, x :: xs => out s x ++ outputs step out (step s x) xs

/-- `P` has held ever since a step that meets `B`. -/
def HeldSince (step : σ → ι → σ) (B : σ → ι → Prop) (P : σ → Prop) (s : σ) (xs : List ι) : Prop :=
  ∃ ys x zs, xs = ys ++ x :: zs ∧ B (ys.foldl step s) x ∧
    Throughout step P (step (ys.foldl step s) x) zs

/-- A step of a run that notes each input with the state it came in. -/
def noted (step : σ → ι → σ) (s : List (σ × ι) × σ) (x : ι) : List (σ × ι) × σ :=
  (s.1 ++ [(s.2, x)], step s.2 x)

/-- Whatever meets `P` in a history has something after it that meets `Q`. -/
def AlwaysAfter (P Q : ι → Prop) (history : List ι) : Prop :=
  ∀ before x after, history = before ++ x :: after → P x → ∃ y ∈ after, Q y

/-- Conditions that agree on what is in a history may be exchanged. -/
theorem alwaysAfter_congr {P P' Q Q' : ι → Prop} {history : List ι}
    (hP : ∀ x ∈ history, P x ↔ P' x) (hQ : ∀ x ∈ history, Q x ↔ Q' x) :
    AlwaysAfter P Q history ↔ AlwaysAfter P' Q' history := by
  refine forall_congr' fun before => forall_congr' fun x => forall_congr' fun after =>
    forall_congr' fun heq => ?_
  have hmem : ∀ y ∈ x :: after, y ∈ history := by
    rw [heq]
    exact fun y hy => List.mem_append_right _ hy
  refine imp_congr (hP x (hmem x (List.mem_cons_self ..))) (exists_congr fun y => ?_)
  exact and_congr_right fun hy => hQ y (hmem y (List.mem_cons_of_mem _ hy))

variable {step : σ → ι → σ}

/-- A property kept by every allowed step holds in every reachable state. -/
theorem Reachable.invariant {ok : σ → ι → Prop} {init : σ} {I : σ → Prop} (h0 : I init)
    (hstep : ∀ s x, I s → ok s x → I (step s x)) {s : σ} (h : Reachable step ok init s) :
    I s := by
  induction h with
  | init => exact h0
  | step _ hx ih => exact hstep _ _ ih hx

/-- The last state of an allowed run is reachable. -/
theorem Along.reachable {ok : σ → ι → Prop} {init s : σ} {xs : List ι}
    (hs : Reachable step ok init s) (h : Along step ok s xs) :
    Reachable step ok init (xs.foldl step s) := by
  induction xs generalizing s with
  | nil => exact hs
  | cons x xs ih => exact ih (.step hs h.1) h.2

/-- What holds throughout holds at the start. -/
theorem Throughout.head {Q : σ → Prop} {s : σ} {xs : List ι}
    (h : Throughout step Q s xs) : Q s := by
  cases xs with
  | nil => exact h
  | cons x xs => exact h.1

/-- What follows from it holds throughout as well. -/
theorem Throughout.imp {P Q : σ → Prop} {s : σ} {xs : List ι} (h : Throughout step P s xs)
    (hPQ : ∀ s, P s → Q s) : Throughout step Q s xs := by
  induction xs generalizing s with
  | nil => exact hPQ s h
  | cons x xs ih => exact ⟨hPQ s h.1, ih h.2⟩

/-- A property kept by every step of the run holds in every state of it. -/
theorem Along.throughout {ok : σ → ι → Prop} {I : σ → Prop}
    (hstep : ∀ s x, I s → ok s x → I (step s x)) {s : σ} {xs : List ι}
    (h0 : I s) (h : Along step ok s xs) : Throughout step I s xs := by
  induction xs generalizing s with
  | nil => exact h0
  | cons x xs ih => exact ⟨h0, ih (hstep s x h0 h.1) h.2⟩

/-- What an invariant gives at each step holds along the run. -/
theorem Throughout.along {I : σ → Prop} {ok P : σ → ι → Prop}
    (hP : ∀ s x, I s → ok s x → P s x) {s : σ} {xs : List ι}
    (h : Throughout step I s xs) (hok : Along step ok s xs) : Along step P s xs := by
  induction xs generalizing s with
  | nil => trivial
  | cons x xs ih => exact ⟨hP s x h.1 hok.1, ih h.2 hok.2⟩

/-- Where one step keeps `Q` exactly when it meets `P`, a whole run stays in
`Q` exactly when all its steps meet `P`. The invariant `J` is kept anyway. -/
theorem throughout_iff_along {ok P : σ → ι → Prop} {J Q : σ → Prop}
    (hJ : ∀ s x, J s → ok s x → J (step s x))
    (hQ : ∀ s x, J s → Q s → ok s x → (Q (step s x) ↔ P s x))
    {s : σ} {xs : List ι} (hj : J s) (hq : Q s) (hok : Along step ok s xs) :
    Throughout step Q s xs ↔ Along step P s xs := by
  induction xs generalizing s with
  | nil => exact ⟨fun _ => trivial, fun _ => hq⟩
  | cons x xs ih =>
    have hiff := hQ s x hj hq hok.1
    have hnext := hJ s x hj hok.1
    constructor
    · intro h
      have hq' : Q (step s x) := h.2.head
      exact ⟨hiff.mp hq', (ih hnext hq' hok.2).mp h.2⟩
    · intro h
      have hq' : Q (step s x) := hiff.mpr h.1
      exact ⟨hq, (ih hnext hq' hok.2).mpr h.2⟩

/-- The same where the steps of the run are judged as well as its states, and the invariant is
kept only by the steps that pass. -/
theorem throughout_and_along_iff {P N : σ → ι → Prop} {J Q : σ → Prop}
    (hP : ∀ s x, J s → (Q (step s x) ∧ N s x ↔ P s x))
    (hJ : ∀ s x, J s → P s x → J (step s x)) {s : σ} {xs : List ι} (hj : J s) (hq : Q s) :
    Throughout step Q s xs ∧ Along step N s xs ↔ Along step P s xs := by
  induction xs generalizing s with
  | nil => exact ⟨fun _ => trivial, fun _ => ⟨hq, trivial⟩⟩
  | cons x xs ih =>
    constructor
    · rintro ⟨⟨-, hrest⟩, hn, hns⟩
      have hp : P s x := (hP s x hj).mp ⟨hrest.head, hn⟩
      exact ⟨hp, (ih (hJ s x hj hp) hrest.head).mp ⟨hrest, hns⟩⟩
    · rintro ⟨hp, hps⟩
      obtain ⟨hq', hn⟩ := (hP s x hj).mpr hp
      obtain ⟨hrest, hns⟩ := (ih (hJ s x hj hp) hq').mpr hps
      exact ⟨⟨hq, hrest⟩, hn, hns⟩

/-- A step condition may be weakened, input by input. -/
theorem Along.imp {P Q : σ → ι → Prop} {s : σ} {xs : List ι} (h : Along step P s xs)
    (hPQ : ∀ x ∈ xs, ∀ s, P s x → Q s x) : Along step Q s xs := by
  induction xs generalizing s with
  | nil => trivial
  | cons x xs ih =>
    exact ⟨hPQ x (List.mem_cons_self ..) s h.1,
      ih h.2 fun y hy => hPQ y (List.mem_cons_of_mem _ hy)⟩

/-- What holds of every input in every state holds along the run. -/
theorem along_of_forall {P : σ → ι → Prop} {s : σ} {xs : List ι} (h : ∀ x ∈ xs, ∀ s, P s x) :
    Along step P s xs := by
  induction xs generalizing s with
  | nil => trivial
  | cons x xs ih =>
    exact ⟨h x (List.mem_cons_self ..) s, ih fun y hy => h y (List.mem_cons_of_mem _ hy)⟩

/-- What every step keeps holds throughout every run. -/
theorem throughout_of_kept {I : σ → Prop} (hstep : ∀ s x, I s → I (step s x)) {s : σ} (h0 : I s)
    (xs : List ι) : Throughout step I s xs := by
  induction xs generalizing s with
  | nil => exact h0
  | cons x xs ih => exact ⟨h0, ih (hstep s x h0)⟩

/-- What an invariant gives at every step holds along the run. -/
theorem Throughout.along_all {I : σ → Prop} {P : σ → ι → Prop} (hP : ∀ s x, I s → P s x) {s : σ}
    {xs : List ι} (h : Throughout step I s xs) : Along step P s xs := by
  induction xs generalizing s with
  | nil => trivial
  | cons x xs ih => exact ⟨hP s x h.1, ih h.2⟩

/-- What holds throughout holds at the end. -/
theorem Throughout.last {Q : σ → Prop} {s : σ} {xs : List ι} (h : Throughout step Q s xs) :
    Q (xs.foldl step s) := by
  induction xs generalizing s with
  | nil => exact h
  | cons x xs ih => exact ih h.2

/-- Where the steps that pass keep the invariant, and a step leads to `Q` exactly when it passes, a
whole run stays in `Q` exactly when all its steps pass. -/
theorem throughout_iff_along_of_pass {P : σ → ι → Prop} {J Q : σ → Prop}
    (hP : ∀ s x, J s → (Q (step s x) ↔ P s x)) (hJ : ∀ s x, J s → P s x → J (step s x))
    {s : σ} {xs : List ι} (hj : J s) (hq : Q s) :
    Throughout step Q s xs ↔ Along step P s xs := by
  have hjudged : ∀ s x, J s → (Q (step s x) ∧ True ↔ P s x) := fun s x h => by
    rw [and_true, hP s x h]
  have htrue : Along step (fun _ _ => True) s xs := along_of_forall fun _ _ _ => trivial
  rw [← throughout_and_along_iff hjudged hJ hj hq, and_iff_left htrue]

/-- A run in two parts. -/
theorem along_append {P : σ → ι → Prop} {s : σ} {xs ys : List ι} :
    Along step P s (xs ++ ys) ↔ Along step P s xs ∧ Along step P (xs.foldl step s) ys := by
  induction xs generalizing s with
  | nil => simp [Along]
  | cons x xs ih => simp [Along, ih, and_assoc]

/-- A run in two parts puts out what the parts do. -/
theorem outputs_append {ω : Type*} (step : σ → ι → σ) (out : σ → ι → List ω) (s : σ)
    (xs ys : List ι) : outputs step out s (xs ++ ys) =
      outputs step out s xs ++ outputs step out (xs.foldl step s) ys := by
  induction xs generalizing s with
  | nil => rfl
  | cons x xs ih => simp [outputs, ih]

/-- Two step conditions that agree under an invariant agree along every run. -/
theorem along_congr {ok P Q : σ → ι → Prop} {J : σ → Prop}
    (hJ : ∀ s x, J s → ok s x → J (step s x))
    (hPQ : ∀ s x, J s → ok s x → (P s x ↔ Q s x))
    {s : σ} {xs : List ι} (hj : J s) (hok : Along step ok s xs) :
    Along step P s xs ↔ Along step Q s xs := by
  induction xs generalizing s with
  | nil => exact Iff.rfl
  | cons x xs ih => exact and_congr (hPQ s x hj hok.1) (ih (hJ s x hj hok.1) hok.2)

/-- The same where every step keeps the invariant. -/
theorem along_congr_of_invariant {P Q : σ → ι → Prop} {J : σ → Prop}
    (hJ : ∀ s x, J s → J (step s x)) (hPQ : ∀ s x, J s → (P s x ↔ Q s x))
    {s : σ} {xs : List ι} (hj : J s) : Along step P s xs ↔ Along step Q s xs := by
  have htrue : Along step (fun _ _ => True) s xs := along_of_forall fun _ _ _ => trivial
  exact along_congr (fun s x h _ => hJ s x h) (fun s x h _ => hPQ s x h) hj htrue

/-- What only steps that meet `B` bring about has held from the start, or ever since one of
them. -/
theorem throughout_or_heldSince {P J : σ → Prop} {B : σ → ι → Prop}
    (hJ : ∀ s x, J s → J (step s x)) (hB : ∀ s x, J s → ¬ P s → P (step s x) → B s x)
    {s : σ} {xs : List ι} (hj : J s) (h : P (xs.foldl step s)) :
    Throughout step P s xs ∨ HeldSince step B P s xs := by
  induction xs generalizing s with
  | nil => exact .inl h
  | cons x xs ih =>
    obtain hall | ⟨ys, y, zs, rfl, hy, hzs⟩ := ih (hJ s x hj) h
    · by_cases hp : P s
      · exact .inl ⟨hp, hall⟩
      · exact .inr ⟨[], x, xs, rfl, hB s x hj hp hall.head, hall⟩
    · exact .inr ⟨x :: ys, y, zs, rfl, hy, hzs⟩

end WebrtcCaller
