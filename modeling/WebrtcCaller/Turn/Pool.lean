import Mathlib
import WebrtcCaller.Turn.Ports

/-!
# The port pool as a set of held ports

Seen from the relay, a pool is the set of ports it has given out. Every operation of the ring
refines one of this set: a port is given out only when it is free, a pair only whole. An
allocation is refused only for want of a fitting port; the last free port is refused as an even one.
-/

namespace WebrtcCaller.Turn

/-- The calls a relay makes on a pool. -/
inductive PoolCall
  | allocate
  | allocateEven (allocateRtcp : Bool) (random : Nat)
  | release (port : Nat)
  deriving DecidableEq

/-- The abstract pool: what a call may answer when the ports of `held` are given out, and which
ports are given out afterwards. -/
inductive PoolStep (range held : Set Nat) : PoolCall → Int → Set Nat → Prop
  | port {p : Nat} : p ∈ range → p ∉ held → PoolStep range held .allocate p (insert p held)
  | exhausted : range ⊆ held → PoolStep range held .allocate (-1) held
  | even {p random : Nat} : p ∈ range → p % 2 = 0 → p ∉ held →
      PoolStep range held (.allocateEven false random) p (insert p held)
  | noEven {random : Nat} :
      (∀ p ∈ range, p % 2 = 0 → p ∈ held) ∨ (range \ held).Subsingleton →
      PoolStep range held (.allocateEven false random) (-1) held
  | pair {p random : Nat} : p ∈ range → p + 1 ∈ range → p % 2 = 0 → p ∉ held → p + 1 ∉ held →
      PoolStep range held (.allocateEven true random) p (insert p (insert (p + 1) held))
  | noPair {random : Nat} :
      (∀ p ∈ range, p % 2 = 0 → p + 1 ∈ range → p ∈ held ∨ p + 1 ∈ held) →
      PoolStep range held (.allocateEven true random) (-1) held
  | release {p : Nat} : PoolStep range held (.release p) 0 (held \ {p})

namespace Turnports

/-- The answer of a call, and the pool after it; `turnports_release` answers nothing. -/
def call (tp : Turnports) : PoolCall → Int × Turnports
  | .allocate => tp.allocate
  | .allocateEven allocateRtcp random =>
    ((tp.allocateEven allocateRtcp random).1, (tp.allocateEven allocateRtcp random).2.2)
  | .release port => (0, tp.release port)

/-- The pool after a call. -/
def step (tp : Turnports) (c : PoolCall) : Turnports := (tp.call c).2

/-- The ports given out. -/
def held (tp : Turnports) : Set Nat := {port | tp.InRange port ∧ isTaken (tp.status port) = true}

/-- The ports of the pool. -/
def range (tp : Turnports) : Set Nat := {port | tp.InRange port}

/-- No port of the range is free. -/
def Exhausted (tp : Turnports) : Prop := ∀ port, tp.InRange port → isTaken (tp.status port) = true

/-- A free even port, for a pair with a free port above it. -/
def Suitable (allocateRtcp : Bool) (tp : Turnports) (port : Nat) : Prop :=
  tp.InRange port ∧ port % 2 = 0 ∧ isTaken (tp.status port) = false ∧
    (allocateRtcp = true → tp.InRange (port + 1) ∧ isTaken (tp.status (port + 1)) = false)

/-- What the rounds of `turnports_allocate_even` can answer. A refusal has gone over the first
`rounds` places of the window; with no port free at all its first round gives back port 65535. -/
inductive EvenAllocated (allocateRtcp : Bool) (rounds : Nat) (tp : Turnports) :
    Int × Option ReservationToken × Turnports → Prop
  | given {port : Nat} {token : Option ReservationToken} {tp' : Turnports} :
      Suitable allocateRtcp tp port → tp'.Valid → tp'.range = tp.range →
      tp'.held = insert port (if allocateRtcp then insert (port + 1) tp.held else tp.held) →
      EvenAllocated allocateRtcp rounds tp (port, token, tp')
  | refused {tp' : Turnports} : tp'.Valid → tp'.range = tp.range →
      tp'.held = {port ∈ tp.held | ¬ (port = 65535 ∧ 0 < rounds ∧ tp.Exhausted)} →
      (∀ port, Suitable allocateRtcp tp port → tp.low + rounds ≤ tp.status port) →
      EvenAllocated allocateRtcp rounds tp (-1, none, tp')

section Held

variable {tp tp' : Turnports}

@[simp] theorem mem_range {port : Nat} : port ∈ tp.range ↔ tp.InRange port := Iff.rfl

@[simp] theorem mem_held {port : Nat} :
    port ∈ tp.held ↔ tp.InRange port ∧ isTaken (tp.status port) = true := Iff.rfl

/-- A port of the range is free when it is not. -/
theorem not_mem_held {port : Nat} (hr : tp.InRange port) :
    port ∉ tp.held ↔ isTaken (tp.status port) = false := by
  rw [mem_held, not_and, Bool.not_eq_true]
  exact ⟨fun h => h hr, fun h _ => h⟩

/-- A mark on one more port. -/
theorem held_take {port mark low : Nat} (hr : tp.InRange port) (hm : isTaken mark = true) :
    held { tp with status := Function.update tp.status port mark, low := low } =
      insert port tp.held := by
  ext q
  rw [Set.mem_insert_iff]
  change tp.InRange q ∧ isTaken (Function.update tp.status port mark q) = true ↔ _
  by_cases he : q = port
  · subst he
    simp [hr, hm]
  · simp [he]

/-- Taking a pair holds both of its ports. -/
theorem held_takePair {port : Nat} (hr : tp.InRange port) (hr' : tp.InRange (port + 1)) :
    (tp.takePair port).held = insert port (insert (port + 1) tp.held) := by
  ext q
  simp only [Set.mem_insert_iff]
  change tp.InRange q ∧ isTaken (Function.update (Function.update tp.status port tpsTakenEven)
    (port + 1) tpsTakenOdd q) = true ↔ _
  by_cases h2 : q = port + 1
  · subst h2
    simp [hr']
  · by_cases h1 : q = port
    · subst h1
      simp [hr]
    · simp [h1, h2]

/-- A port given back is held no more, the others stay. -/
theorem Valid.release (h : tp.Valid) (hh : tp.high < 2 ^ 32 - 4) (port : Nat) :
    (tp.release port).Valid ∧ (tp.release port).range = tp.range ∧
      (tp.release port).held = tp.held \ {port} ∧ (tp.release port).high ≤ tp.high + 1 := by
  by_cases ht : tp.InRange port ∧ isTaken (tp.status port) = true
  · obtain ⟨hr, ht⟩ := ht
    rw [release_taken hr ht (by omega)]
    refine ⟨h.push hr ht hh, rfl, ?_, le_rfl⟩
    ext q
    change tp.InRange q ∧ isTaken (Function.update tp.status port tp.high q) = true ↔ _
    by_cases he : q = port
    · subst he
      simp [isTaken_eq_false hh]
    · simp [he]
  · rw [release_of_not ht]
    refine ⟨h, rfl, ?_, Nat.le_succ _⟩
    ext q
    rw [Set.mem_sdiff, Set.mem_singleton_iff, iff_self_and]
    rintro hq rfl
    exact ht hq

end Held

section Rounds

variable {allocateRtcp : Bool} {tp : Turnports}

/-- A port that was taken out and does not fit goes to the end of the window; nothing else
changes for the rounds that follow. -/
theorem EvenAllocated.retry {rounds port : Nat} {tp' : Turnports}
    {r : Int × Option ReservationToken × Turnports} (hr : tp.InRange port)
    (hfree : isTaken (tp.status port) = false) (hnot : ¬ Suitable allocateRtcp tp port)
    (hh : tp.high < 2 ^ 32 - 4) (hlow : tp.low < tp'.low)
    (hrange : ∀ q, tp'.InRange q ↔ tp.InRange q)
    (hstatus : tp'.status = Function.update tp.status port tp.high)
    (h : EvenAllocated allocateRtcp rounds tp' r) :
    EvenAllocated allocateRtcp (rounds + 1) tp r := by
  have htaken : ∀ q, isTaken (tp'.status q) = isTaken (tp.status q) := by
    intro q
    by_cases he : q = port
    · rw [he, hstatus, Function.update_self, hfree, isTaken_eq_false hh]
    · rw [hstatus, Function.update_of_ne he]
  have hheld : tp'.held = tp.held := by
    ext q
    rw [mem_held, mem_held, hrange, htaken]
  have hreq : tp'.range = tp.range := by
    ext q
    exact hrange q
  have hsuit : ∀ q, Suitable allocateRtcp tp' q ↔ Suitable allocateRtcp tp q := by
    intro q
    simp only [Suitable, hrange, htaken]
  have hmore : ¬ tp.Exhausted ∧ ¬ tp'.Exhausted := by
    refine ⟨fun he => ?_, fun he => ?_⟩
    · simpa only [hfree, Bool.false_eq_true] using he port hr
    · simpa only [htaken, hfree, Bool.false_eq_true] using he port ((hrange port).mpr hr)
  cases h with
  | given hs hv hrg hhd =>
    exact .given ((hsuit _).mp hs) hv (hrg.trans hreq) (hheld ▸ hhd)
  | refused hv hrg hhd hall =>
    refine .refused hv (hrg.trans hreq) ?_ ?_
    · simpa only [hmore, and_false, not_false_eq_true, and_true, hheld] using hhd
    · intro q hq
      have hne : q ≠ port := by
        rintro rfl
        exact hnot hq
      have := hall q ((hsuit q).mpr hq)
      rw [hstatus, Function.update_of_ne hne] at this
      omega

/-- A port taken out of the window and given back at once. -/
theorem release_single {port low : Nat} (hr : tp.InRange port) (hh : tp.high < 2 ^ 32 - 1) :
    release { tp with status := Function.update tp.status port tpsTakenSingle, low := low } port =
      { tp with
        status := Function.update tp.status port tp.high
        ports := Function.update tp.ports (tp.high % 2 ^ 16) port
        low := low
        high := tp.high + 1 } := by
  rw [release_taken]
  · simp only [Function.update_idem]
  · exact hr
  · simp
  · exact hh

/-- A port number survives the conversions. -/
theorem uint16_natCast {port : Nat} (h : port < 2 ^ 16) :
    ((port : Int) % 2 ^ 16).toNat = port := by
  omega

/-- The port above an even one taken out is available exactly when it is free. -/
theorem Valid.isAvailable_iff (h : tp.Valid) {port : Nat} (hr : tp.InRange port) :
    tp.isAvailable port = true ↔ isTaken (tp.status port) = false := by
  unfold isAvailable
  simp only [Bool.and_eq_true, bne_iff_ne, Bool.not_eq_true', beq_iff_eq]
  constructor
  · exact fun h => h.1.2
  · intro hfree
    obtain ⟨-, hlt, hport⟩ := h.free_place port hr hfree
    have := h.high_le
    exact ⟨⟨by unfold tpsOutOfRange; omega, hfree⟩, hport⟩

/-- With every port taken, a round gives back port 65535, and the later rounds find only it. -/
theorem EvenAllocated.of_exhausted {rounds : Nat} {tp' : Turnports}
    {r : Int × Option ReservationToken × Turnports} (hex : tp.Exhausted)
    (hrange : tp'.range = tp.range) (hheld : tp'.held = tp.held \ {65535})
    (h : EvenAllocated allocateRtcp rounds tp' r) :
    EvenAllocated allocateRtcp (rounds + 1) tp r := by
  have hnone : ∀ q, ¬ Suitable allocateRtcp tp q := by
    intro q hq
    simpa only [hq.2.2.1, Bool.false_eq_true] using hex q hq.1
  have hfree : ∀ q, tp'.InRange q → isTaken (tp'.status q) = false → q = 65535 := by
    intro q hq hfree
    by_contra hne
    have hr : tp.InRange q := (Set.ext_iff.mp hrange q).mp hq
    have hin : q ∈ tp'.held := by
      rw [hheld]
      exact ⟨⟨hr, hex q hr⟩, hne⟩
    rw [mem_held, hfree] at hin
    exact Bool.false_ne_true hin.2
  cases h with
  | given hs hv hrg hhd =>
    have := hfree _ hs.1 hs.2.2.1
    have := hs.2.1
    omega
  | refused hv hrg hhd hall =>
    refine .refused hv (hrg.trans hrange) ?_ (fun q hq => absurd hq (hnone q))
    rw [hhd, hheld]
    ext q
    simp only [Set.mem_ofPred_eq, Set.mem_sdiff, Set.mem_singleton_iff, hex, and_true,
      Nat.succ_pos]
    constructor
    · exact fun h => h.1
    · exact fun h => ⟨h, fun h' => h.2 h'.1⟩

/-- The search for an even port takes the first fitting one, or puts everything back. -/
theorem allocateEvenLoop_spec (allocateRtcp : Bool) (random rounds : Nat) {tp : Turnports}
    (h : tp.Valid) (hh : tp.high + rounds ≤ 2 ^ 32 - 4) :
    EvenAllocated allocateRtcp rounds tp (allocateEvenLoop allocateRtcp random rounds tp) := by
  induction rounds generalizing tp with
  | zero =>
    refine .refused h rfl ?_ ?_
    · simp only [lt_irrefl, false_and, and_false, not_false_eq_true, and_true]
      rfl
    · intro q hq
      exact (h.free_place q hq.1 hq.2.2.1).1
  | succ rounds ih =>
    have hspec := allocate_spec h
    rw [allocateEvenLoop]
    generalize tp.allocate = r at hspec ⊢
    cases hspec with
    | none hall hv =>
      -- `-1` is odd, and as a 16-bit port it is 65535
      simp only [Int.reduceNeg, Int.reduceMod, if_true]
      obtain ⟨hv', hrange, hheld, hhigh⟩ := hv.release (by simp only; omega)
        ((-1 : Int) % 2 ^ 16).toNat
      apply EvenAllocated.of_exhausted hall hrange hheld
      apply ih hv'
      simp only at hhigh
      omega
    | @port port low hr hfree hlow hv hfresh =>
      have hstop := h.stop_lt
      have hlt : port < 2 ^ 16 := lt_of_le_of_lt hr.2 hstop
      have huint : tp.InRange (port + 1) → (((port : Int) + 1) % 2 ^ 16).toNat = port + 1 :=
        fun hr' => uint16_natCast (lt_of_le_of_lt hr'.2 hstop)
      -- a port that does not fit is given back, and the next round goes on behind it
      have hback : ¬ Suitable allocateRtcp tp port → EvenAllocated allocateRtcp (rounds + 1) tp
          (allocateEvenLoop allocateRtcp random rounds (release
            { tp with status := Function.update tp.status port tpsTakenSingle, low := low }
            ((port : Int) % 2 ^ 16).toNat)) := by
        intro hnot
        rw [uint16_natCast hlt]
        obtain ⟨hv', -, -, hhigh⟩ := hv.release (by simp only; omega) port
        refine EvenAllocated.retry hr hfree hnot (by omega) ?_ ?_ ?_ (ih hv' ?_)
        · rw [release_single hr (by omega)]
          exact hlow
        · intro q
          rw [release_single hr (by omega)]
          rfl
        · rw [release_single hr (by omega)]
        · simp only at hhigh
          omega
      simp only
      split_ifs with hodd hrtcp hover havail
      · apply hback
        intro hs
        have := hs.2.1
        omega
      · have hfalse : allocateRtcp = false := by simpa using hrtcp
        subst hfalse
        refine .given ⟨hr, by omega, hfree, by simp⟩ hv rfl ?_
        exact held_take hr isTaken_single
      · apply hback
        intro hs
        have htrue : allocateRtcp = true := by simpa using hrtcp
        have := (hs.2.2.2 htrue).1.2
        omega
      · apply hback
        intro hs
        have htrue : allocateRtcp = true := by simpa using hrtcp
        obtain ⟨hr', hfree'⟩ := hs.2.2.2 htrue
        rw [huint hr', Bool.not_eq_true', ← Bool.not_eq_true, hv.isAvailable_iff hr'] at havail
        apply havail
        simp only [Function.update_of_ne (Nat.succ_ne_self port)]
        exact hfree'
      · have htrue : allocateRtcp = true := by simpa using hrtcp
        have hr' : tp.InRange (port + 1) := ⟨Nat.le_succ_of_le hr.1, by omega⟩
        rw [huint hr', Bool.not_eq_true', Bool.not_eq_false, hv.isAvailable_iff hr'] at havail
        simp only [Function.update_of_ne (Nat.succ_ne_self port)] at havail
        subst htrue
        refine .given ⟨hr, by omega, hfree, fun _ => ⟨hr', havail⟩⟩ ?_ rfl ?_
        · apply hv.takePair hr (by omega) (by simp)
          intro i hi hi' hp
          simp only [Function.update_of_ne (Nat.succ_ne_self port)]
          exact hfresh i hi hi' hp
        · rw [Int.toNat_natCast, held_takePair, held_take hr isTaken_single]
          · ext q
            simp only [Set.mem_insert_iff, if_true]
            tauto
          · exact hr
          · exact hr'

end Rounds

section Calls

variable {tp : Turnports}

/-- As many ports are in the ring as lie between its ends. -/
theorem Valid.size_eq (h : tp.Valid) : tp.size = tp.high - tp.low := by
  rw [size, Nat.mod_eq_of_lt h.window]

/-- Two free ports have two places in the window. -/
theorem Valid.free_subsingleton (h : tp.Valid) (hsize : ¬ 1 < tp.size) :
    (tp.range \ tp.held).Subsingleton := by
  rintro p ⟨hp, hp'⟩ q ⟨hq, hq'⟩
  rw [not_mem_held hp] at hp'
  rw [not_mem_held hq] at hq'
  obtain ⟨hp1, hp2, hp3⟩ := h.free_place p hp hp'
  obtain ⟨hq1, hq2, hq3⟩ := h.free_place q hq hq'
  rw [h.size_eq] at hsize
  have he : tp.status p = tp.status q := by omega
  rw [← hp3, he, hq3]

/-- A refusal after all rounds means that no port of the window fitted. -/
theorem Valid.not_suitable (h : tp.Valid) {allocateRtcp : Bool}
    (hall : ∀ port, Suitable allocateRtcp tp port → tp.low + tp.size ≤ tp.status port)
    (port : Nat) : ¬ Suitable allocateRtcp tp port := by
  intro hs
  have hplace := (h.free_place port hs.1 hs.2.2.1).2.1
  have := hall port hs
  rw [h.size_eq] at this
  omega

/-- With two slots or more in the window, the rounds decide. -/
theorem allocateEven_rounds (h : tp.Valid) (hh : tp.high + 2 ^ 16 ≤ 2 ^ 32 - 4)
    (allocateRtcp : Bool) (random : Nat) (hsize : 1 < tp.size) :
    EvenAllocated allocateRtcp tp.size tp (tp.allocateEven allocateRtcp random) := by
  rw [allocateEven, if_pos hsize]
  apply allocateEvenLoop_spec allocateRtcp random tp.size h
  have := h.window
  rw [h.size_eq]
  omega

/-- `turnports_allocate_even` gives out a fitting port or pair, or refuses for want of one. -/
theorem allocateEven_spec (h : tp.Valid) (hh : tp.high + 2 ^ 16 ≤ 2 ^ 32 - 4)
    (allocateRtcp : Bool) (random : Nat) :
    (∃ port : Nat, Suitable allocateRtcp tp port ∧
      (tp.allocateEven allocateRtcp random).1 = port ∧
      (tp.allocateEven allocateRtcp random).2.2.held =
        insert port (if allocateRtcp then insert (port + 1) tp.held else tp.held)) ∨
    ((tp.allocateEven allocateRtcp random).1 = -1 ∧
      ((∀ port, ¬ Suitable allocateRtcp tp port) ∨ (tp.range \ tp.held).Subsingleton) ∧
      (tp.allocateEven allocateRtcp random).2.2.held =
        {port ∈ tp.held | ¬ (port = 65535 ∧ 1 < tp.size ∧ tp.Exhausted)}) := by
  by_cases hsize : 1 < tp.size
  · have hspec := allocateEven_rounds h hh allocateRtcp random hsize
    generalize tp.allocateEven allocateRtcp random = r at hspec ⊢
    cases hspec with
    | given hs hv hr hheld => exact Or.inl ⟨_, hs, rfl, hheld⟩
    | refused hv hr hheld hall =>
      refine Or.inr ⟨rfl, Or.inl (h.not_suitable hall), ?_⟩
      have hpos : 0 < tp.size := by omega
      simpa only [hpos, hsize, true_and] using hheld
  · rw [allocateEven, if_neg hsize]
    refine Or.inr ⟨rfl, Or.inr (h.free_subsingleton hsize), ?_⟩
    simp only [hsize, false_and, and_false, not_false_eq_true, and_true]
    rfl

/-- Every call keeps the ring invariant and the range. -/
theorem Valid.step (h : tp.Valid) (hh : tp.high + 2 ^ 16 ≤ 2 ^ 32 - 4) (c : PoolCall) :
    (tp.step c).Valid ∧ (tp.step c).range = tp.range := by
  cases c with
  | allocate =>
    have hspec := allocate_spec h
    change tp.allocate.2.Valid ∧ tp.allocate.2.range = tp.range
    generalize tp.allocate = r at hspec ⊢
    cases hspec with
    | none _ hv => exact ⟨hv, rfl⟩
    | port _ _ _ hv _ => exact ⟨hv, rfl⟩
  | allocateEven allocateRtcp random =>
    change (tp.allocateEven allocateRtcp random).2.2.Valid ∧
      (tp.allocateEven allocateRtcp random).2.2.range = tp.range
    by_cases hsize : 1 < tp.size
    · have hspec := allocateEven_rounds h hh allocateRtcp random hsize
      generalize tp.allocateEven allocateRtcp random = r at hspec ⊢
      cases hspec with
      | given _ hv hr _ => exact ⟨hv, hr⟩
      | refused hv hr _ _ => exact ⟨hv, hr⟩
    · rw [allocateEven, if_neg hsize]
      exact ⟨h, rfl⟩
  | release port =>
    obtain ⟨hv, hr, -, -⟩ := h.release (by omega) port
    exact ⟨hv, hr⟩

/-- The call that goes wrong: an even port asked of a pool that has none free, while stale slots
are left in the window and port 65535 belongs to the range. -/
def FreesLast (tp : Turnports) : PoolCall → Prop
  | .allocateEven _ _ => tp.InRange 65535 ∧ 1 < tp.size ∧ tp.Exhausted
  | _ => False

/-- One call of the ring is one step of the abstract pool. -/
theorem Valid.call_refines (h : tp.Valid) (hh : tp.high + 2 ^ 16 ≤ 2 ^ 32 - 4)
    {c : PoolCall} (hlast : ¬ tp.FreesLast c) :
    PoolStep tp.range tp.held c (tp.call c).1 (tp.step c).held := by
  cases c with
  | allocate =>
    have hspec := allocate_spec h
    change PoolStep tp.range tp.held .allocate tp.allocate.1 tp.allocate.2.held
    generalize tp.allocate = r at hspec ⊢
    cases hspec with
    | none hall _ => exact .exhausted fun q hq => ⟨hq, hall q hq⟩
    | port hr hfree _ _ _ =>
      rw [held_take hr isTaken_single]
      exact .port hr ((not_mem_held hr).mpr hfree)
  | allocateEven allocateRtcp random =>
    have hsame : {port ∈ tp.held | ¬ (port = 65535 ∧ 1 < tp.size ∧ tp.Exhausted)} = tp.held := by
      ext q
      rw [Set.mem_ofPred_eq, and_iff_left_iff_imp]
      rintro ⟨hr, -⟩ ⟨rfl, hmore⟩
      exact hlast ⟨hr, hmore⟩
    change PoolStep tp.range tp.held _ (tp.allocateEven allocateRtcp random).1
      (tp.allocateEven allocateRtcp random).2.2.held
    rcases allocateEven_spec h hh allocateRtcp random with
      ⟨port, ⟨hr, heven, hfree, hpair⟩, hanswer, hheld⟩ | ⟨hanswer, hnone, hheld⟩
    · rw [hanswer, hheld]
      have hnot := (not_mem_held hr).mpr hfree
      cases allocateRtcp with
      | false => exact .even hr heven hnot
      | true =>
        obtain ⟨hr', hfree'⟩ := hpair rfl
        exact .pair hr hr' heven hnot ((not_mem_held hr').mpr hfree')
    · rw [hanswer, hheld, hsame]
      cases allocateRtcp with
      | false =>
        refine .noEven (hnone.imp (fun hs p hp heven => ?_) id)
        by_contra hn
        exact hs p ⟨hp, heven, (not_mem_held hp).mp hn, by simp⟩
      | true =>
        refine .noPair fun p hp heven hp' => ?_
        by_contra hn
        rw [not_or] at hn
        rcases hnone with hs | hsub
        · exact hs p ⟨hp, heven, (not_mem_held hp).mp hn.1,
            fun _ => ⟨hp', (not_mem_held hp').mp hn.2⟩⟩
        · have := hsub ⟨hp, hn.1⟩ ⟨hp', hn.2⟩
          omega
  | release port =>
    change PoolStep tp.range tp.held _ 0 (tp.release port).held
    rw [(h.release (by omega) port).2.2.1]
    exact .release

/-- The other way: such a call refuses, and port 65535 is held no more. -/
theorem Valid.freesLast (h : tp.Valid) (hh : tp.high + 2 ^ 16 ≤ 2 ^ 32 - 4) {c : PoolCall}
    (hlast : tp.FreesLast c) :
    (tp.call c).1 = -1 ∧ 65535 ∈ tp.held ∧ (tp.step c).held = tp.held \ {65535} := by
  cases c with
  | allocate => exact hlast.elim
  | release port => exact hlast.elim
  | allocateEven allocateRtcp random =>
    obtain ⟨hr, hsize, hex⟩ := hlast
    change (tp.allocateEven allocateRtcp random).1 = -1 ∧ _ ∧
      (tp.allocateEven allocateRtcp random).2.2.held = _
    rcases allocateEven_spec h hh allocateRtcp random with
      ⟨port, hs, -⟩ | ⟨hanswer, -, hheld⟩
    · have := hex port hs.1
      rw [hs.2.2.1] at this
      exact absurd this Bool.false_ne_true
    · refine ⟨hanswer, ⟨hr, hex _ hr⟩, ?_⟩
      rw [hheld]
      ext q
      simp only [hsize, hex, and_true, Set.mem_ofPred_eq, Set.mem_sdiff, Set.mem_singleton_iff]

/-- A valid pool serves a call as it should exactly if no last port is freed. -/
theorem Valid.call_refines_iff (h : tp.Valid) (hh : tp.high + 2 ^ 16 ≤ 2 ^ 32 - 4)
    (c : PoolCall) :
    PoolStep tp.range tp.held c (tp.call c).1 (tp.step c).held ↔ ¬ tp.FreesLast c := by
  refine ⟨fun hstep hlast => ?_, h.call_refines hh⟩
  obtain ⟨hanswer, hin, hheld⟩ := h.freesLast hh hlast
  rw [hanswer, hheld] at hstep
  have hne : tp.held \ {65535} ≠ tp.held := by
    intro he
    rw [← he] at hin
    exact hin.2 rfl
  cases c with
  | allocate => exact hlast
  | release port => exact hlast
  | allocateEven allocateRtcp random =>
    generalize hr : (-1 : Int) = r at hstep
    generalize tp.held \ {65535} = held' at hstep hne
    cases hstep with
    | even => omega
    | noEven => exact hne rfl
    | pair => omega
    | noPair => exact hne rfl

end Calls

section Runs

/-- The counters of the pool stay clear of the marks; a call moves them by less than the ring. -/
def Counting (tp : Turnports) (_ : PoolCall) : Prop := tp.high + 2 ^ 16 ≤ 2 ^ 32 - 4

/-- Whether a call keeps the counters in their words can be computed. -/
instance (tp : Turnports) (c : PoolCall) : Decidable (tp.Counting c) :=
  inferInstanceAs (Decidable (_ ≤ _))

variable {start stop : Nat} {random : List (Nat × Nat)} {calls : List PoolCall} {tp : Turnports}

/-- What a run keeps. -/
def Serving (start stop : Nat) (tp : Turnports) : Prop :=
  tp.Valid ∧ tp.range = Set.Icc start stop

/-- Every call that keeps the counters in their words leaves the pool serving. -/
theorem Serving.step (h : Serving start stop tp) {c : PoolCall} (hc : tp.Counting c) :
    Serving start stop (tp.step c) := by
  obtain ⟨hv, hr⟩ := h.1.step hc c
  exact ⟨hv, hr.trans h.2⟩

/-- A new pool serves, and nothing is held. -/
theorem serving_create (hstop : stop < 2 ^ 16) (hnarrow : 3 * (stop + 1 - start) ≤ 2 * 65535)
    (hcreate : create start stop random = some tp) :
    Serving start stop tp ∧ tp.held = ∅ := by
  unfold create at hcreate
  split_ifs at hcreate with hle
  rw [not_lt] at hle
  obtain rfl := Option.some.inj hcreate
  have hs := shuffled_init hle hstop random
  refine ⟨⟨hs.valid hstop hnarrow hle, ?_⟩, ?_⟩
  · ext q
    rw [mem_range, InRange, hs.rangeStart, hs.rangeStop, Set.mem_Icc]
  · ext q
    rw [mem_held, InRange, hs.rangeStart, hs.rangeStop]
    simp only [Set.mem_empty_iff_false, iff_false, not_and, Bool.not_eq_true]
    rintro ⟨hq, hq'⟩
    apply isTaken_eq_false
    have := (hs.place q hq hq').2.1
    omega

/-- After a run the pool is serving. -/
theorem Serving.foldl (h : Serving start stop tp)
    (hcount : Along Turnports.step Counting tp calls) :
    Serving start stop (calls.foldl Turnports.step tp) :=
  (hcount.reachable .init).invariant h fun _ _ hs hc => hs.step hc

/-- Throughout a run the pool is serving. -/
theorem Serving.throughout (h : Serving start stop tp)
    (hcount : Along Turnports.step Counting tp calls) :
    Throughout Turnports.step (Serving start stop) tp calls := by
  apply Along.throughout _ h hcount
  intro s c hs hc
  exact hs.step hc

/-- A serving pool serves a call as it should exactly if no last port is freed. -/
theorem Serving.call_refines_iff (h : Serving start stop tp) {c : PoolCall}
    (hc : tp.Counting c) :
    PoolStep (Set.Icc start stop) tp.held c (tp.call c).1 (tp.step c).held ↔
      ¬ tp.FreesLast c := by
  rw [← h.2]
  exact h.1.call_refines_iff hc c

/-- In every run of a pool, a call is a step of the abstract pool unless it is the one that frees
port 65535. -/
theorem run_refines_pool (hstop : stop < 2 ^ 16) (hnarrow : 3 * (stop + 1 - start) ≤ 2 * 65535)
    (hcreate : create start stop random = some tp) (hcount : Along step Counting tp calls) :
    tp.held = ∅ ∧ Along step (fun tp c =>
      PoolStep (Set.Icc start stop) tp.held c (tp.call c).1 (tp.step c).held ↔
        ¬ tp.FreesLast c) tp calls := by
  obtain ⟨hserving, hempty⟩ := serving_create hstop hnarrow hcreate
  refine ⟨hempty, ?_⟩
  exact (hserving.throughout hcount).along (fun s c hs hc => hs.call_refines_iff hc) hcount

/-- Four ports, with a pair, a single port, a release and another even port. -/
theorem run_refines_pool_pairs :
    Along step (fun tp c =>
      PoolStep (Set.Icc 50000 50003) tp.held c (tp.call c).1 (tp.step c).held ↔
        ¬ tp.FreesLast c) (init 50000 50003 [(1, 3)])
      [.allocateEven true 7, .allocate, .release 50000, .allocateEven false 0] := by
  have hcount : Along step Counting (init 50000 50003 [(1, 3)])
      [.allocateEven true 7, .allocate, .release 50000, .allocateEven false 0] :=
    ⟨by decide +kernel, by decide +kernel, by decide +kernel, by decide +kernel, trivial⟩
  exact (run_refines_pool (by decide) (by decide) rfl hcount).2

/-- The ports a call gives out, read off its answer. -/
def given : PoolCall → Int → List Nat
  | .release _, _ => []
  | .allocateEven true _, r => if r = -1 then [] else [r.toNat, r.toNat + 1]
  | _, r => if r = -1 then [] else [r.toNat]

end Runs

end Turnports

namespace PoolStep

variable {range held held' : Set Nat} {c : PoolCall} {r : Int} {p : Nat}

/-- What is given out was not held, and is held afterwards. -/
theorem given (h : PoolStep range held c r held') (hp : p ∈ Turnports.given c r) :
    p ∈ range ∧ p ∉ held ∧ p ∈ held' := by
  cases h with
  | @port q hr hn =>
    have he : p = q := by simpa [Turnports.given] using hp
    subst he
    exact ⟨hr, hn, Set.mem_insert _ _⟩
  | exhausted => simp [Turnports.given] at hp
  | @even q random hr heven hn =>
    have he : p = q := by simpa [Turnports.given] using hp
    subst he
    exact ⟨hr, hn, Set.mem_insert _ _⟩
  | noEven => simp [Turnports.given] at hp
  | @pair q random hr hr' heven hn hn' =>
    have he : p = q ∨ p = q + 1 := by simpa [Turnports.given] using hp
    rcases he with rfl | rfl
    · exact ⟨hr, hn, Set.mem_insert _ _⟩
    · exact ⟨hr', hn', Set.mem_insert_of_mem _ (Set.mem_insert _ _)⟩
  | noPair => simp [Turnports.given] at hp
  | release => simp [Turnports.given] at hp

/-- Only its own release takes a port away. -/
theorem keeps (h : PoolStep range held c r held') (hp : p ∈ held) (hc : c ≠ .release p) :
    p ∈ held' := by
  cases h with
  | port => exact Set.mem_insert_of_mem _ hp
  | exhausted => exact hp
  | even => exact Set.mem_insert_of_mem _ hp
  | noEven => exact hp
  | pair => exact Set.mem_insert_of_mem _ (Set.mem_insert_of_mem _ hp)
  | noPair => exact hp
  | @release q =>
    refine ⟨hp, ?_⟩
    rintro rfl
    exact hc rfl

end PoolStep

namespace Turnports

section Runs

variable {start stop : Nat} {random : List (Nat × Nat)} {tp : Turnports}

/-- A held port stays held until it is released. -/
theorem Serving.held_foldl {p : Nat} {calls : List PoolCall} (h : Serving start stop tp)
    (hcount : Along Turnports.step Counting tp calls)
    (hlast : Along Turnports.step (fun tp c => ¬ tp.FreesLast c) tp calls) (hp : p ∈ tp.held)
    (hrel : .release p ∉ calls) : p ∈ (calls.foldl Turnports.step tp).held := by
  induction calls generalizing tp with
  | nil => exact hp
  | cons c calls ih =>
    rw [List.mem_cons, not_or] at hrel
    have hstep := (h.call_refines_iff hcount.1).mpr hlast.1
    exact ih (h.step hcount.1) hcount.2 hlast.2 (hstep.keeps hp (Ne.symm hrel.1)) hrel.2

/-- No port is given out twice without having been released in between, unless a call frees
port 65535. -/
theorem given_once {p : Nat} {c d : PoolCall} {before between : List PoolCall}
    (hstop : stop < 2 ^ 16) (hnarrow : 3 * (stop + 1 - start) ≤ 2 * 65535)
    (hcreate : create start stop random = some tp)
    (hcount : Along step Counting tp (before ++ c :: between ++ [d]))
    (hlast : Along step (fun tp c => ¬ tp.FreesLast c) tp (before ++ c :: between ++ [d]))
    (hc : p ∈ given c ((before.foldl step tp).call c).1)
    (hd : p ∈ given d (((before ++ c :: between).foldl step tp).call d).1) :
    .release p ∈ between := by
  by_contra hrel
  obtain ⟨hserving, -⟩ := serving_create hstop hnarrow hcreate
  obtain ⟨hmain, hcountd, -⟩ := along_append.mp hcount
  obtain ⟨hbefore, hcountc, hbetween⟩ := along_append.mp hmain
  obtain ⟨hlastmain, hlastd, -⟩ := along_append.mp hlast
  obtain ⟨-, hlastc, hlastbetween⟩ := along_append.mp hlastmain
  have hs := hserving.foldl hbefore
  have hgiven := ((hs.call_refines_iff hcountc).mpr hlastc).given hc
  have hheld := (hs.step hcountc).held_foldl hbetween hlastbetween hgiven.2.2 hrel
  have ht := hserving.foldl hmain
  have hagain := ((ht.call_refines_iff hcountd).mpr hlastd).given hd
  apply hagain.2.1
  rw [List.foldl_append]
  exact hheld

/-- The odd port of a pair, given back and given out again behind its stale slot. -/
theorem given_once_pair :
    .release 65533 ∈ [PoolCall.release 65532, .release 65533, .allocate, .allocate, .allocate] := by
  have hcount : Along step Counting (init 65532 65535 [(1, 3)])
      ([] ++ .allocateEven true 7 :: [.release 65532, .release 65533, .allocate, .allocate,
        .allocate] ++ [.allocate]) :=
    ⟨by decide +kernel, by decide +kernel, by decide +kernel, by decide +kernel,
      by decide +kernel, by decide +kernel, by decide +kernel, trivial⟩
  have hlast : Along step (fun tp c => ¬ tp.FreesLast c) (init 65532 65535 [(1, 3)])
      ([] ++ .allocateEven true 7 :: [.release 65532, .release 65533, .allocate, .allocate,
        .allocate] ++ [.allocate]) := by
    refine ⟨?_, id, id, id, id, id, id, trivial⟩
    rintro ⟨hr, -, hex⟩
    exact absurd (hex 65535 hr) (by decide +kernel)
  have hcreate : create 65532 65535 [(1, 3)] = some (init 65532 65535 [(1, 3)]) := rfl
  exact given_once (by decide) (by decide) hcreate hcount hlast (by decide +kernel)
    (by decide +kernel)

/-- The ports that are not given out. -/
def free (tp : Turnports) : Finset Nat :=
  (Finset.Icc tp.rangeStart tp.rangeStop).filter fun port => isTaken (tp.status port) = false

theorem mem_free {port : Nat} :
    port ∈ tp.free ↔ tp.InRange port ∧ isTaken (tp.status port) = false := by
  rw [free, Finset.mem_filter, Finset.mem_Icc, InRange]

/-- The answers of single allocations, one after the other. -/
def allocations (tp : Turnports) (n : Nat) : List Int :=
  outputs step (fun tp c => [(tp.call c).1]) tp (List.replicate n .allocate)

/-- The allocations of a while are the first one and then the others. -/
theorem allocations_succ (tp : Turnports) (n : Nat) :
    tp.allocations (n + 1) = tp.allocate.1 :: allocations tp.allocate.2 n := rfl

/-- Allocations give out the free ports, each once, and are refused when all are given out. -/
theorem Valid.allocations (h : tp.Valid) :
    ∃ ports : List Nat, ports.Nodup ∧ (∀ p, p ∈ ports ↔ p ∈ tp.free) ∧
      tp.allocations (ports.length + 1) = ports.map (↑) ++ [-1] := by
  generalize hn : tp.free.card = n
  induction n generalizing tp with
  | zero =>
    rw [Finset.card_eq_zero] at hn
    refine ⟨[], List.nodup_nil, by simp [hn], ?_⟩
    have hspec := allocate_spec h
    rw [List.length_nil, allocations_succ]
    generalize tp.allocate = r at hspec ⊢
    cases hspec with
    | none => rfl
    | port hr hfree =>
      have := mem_free.mpr ⟨hr, hfree⟩
      simp [hn] at this
  | succ n ih =>
    have hspec := allocate_spec h
    cases hr : tp.allocate with
    | mk r tp' =>
      rw [hr] at hspec
      cases hspec with
      | none hall hv =>
        have hempty : tp.free = ∅ := by
          apply Finset.eq_empty_of_forall_notMem
          intro q hq
          rw [mem_free] at hq
          simpa only [hq.2, Bool.false_eq_true] using hall q hq.1
        simp [hempty] at hn
      | @port port low hin hfree hlow hv hfresh =>
        have herase : free { tp with
            status := Function.update tp.status port tpsTakenSingle, low := low } =
            tp.free.erase port := by
          ext q
          rw [Finset.mem_erase, mem_free, mem_free]
          change tp.InRange q ∧
            isTaken (Function.update tp.status port tpsTakenSingle q) = false ↔ _
          by_cases he : q = port
          · subst he
            simp
          · simp [he]
        have hmem : port ∈ tp.free := mem_free.mpr ⟨hin, hfree⟩
        have hcard : (tp.free.erase port).card = n := by
          rw [Finset.card_erase_of_mem hmem, hn, Nat.add_sub_cancel]
        obtain ⟨ports, hnodup, hports, heq⟩ := ih hv (herase ▸ hcard)
        rw [herase] at hports
        refine ⟨port :: ports, List.nodup_cons.mpr ⟨?_, hnodup⟩, ?_, ?_⟩
        · rw [hports]
          exact Finset.notMem_erase port tp.free
        · intro p
          rw [List.mem_cons, hports, Finset.mem_erase]
          by_cases he : p = port
          · simp [he, hmem]
          · simp [he]
        · rw [List.length_cons, allocations_succ, hr, List.map_cons, List.cons_append, heq]

/-- No port is lost: after any run, allocations go on until every port that is not held has been
given out once, and only then are refused. -/
theorem no_port_lost (hstop : stop < 2 ^ 16) (hnarrow : 3 * (stop + 1 - start) ≤ 2 * 65535)
    (hcreate : create start stop random = some tp) {calls : List PoolCall}
    (hcount : Along step Counting tp calls) :
    ∃ ports : List Nat, ports.Nodup ∧
      (∀ p, p ∈ ports ↔ p ∈ Set.Icc start stop ∧ p ∉ (calls.foldl step tp).held) ∧
      (calls.foldl step tp).allocations (ports.length + 1) = ports.map (↑) ++ [-1] := by
  obtain ⟨hserving, -⟩ := serving_create hstop hnarrow hcreate
  obtain ⟨hvalid, hrange⟩ := hserving.foldl hcount
  obtain ⟨ports, hnodup, hports, heq⟩ := hvalid.allocations
  refine ⟨ports, hnodup, ?_, heq⟩
  intro p
  rw [hports, mem_free, ← hrange, mem_range]
  constructor
  · exact fun h => ⟨h.1, (not_mem_held h.1).mpr h.2⟩
  · exact fun h => ⟨h.1, (not_mem_held h.1).mp h.2⟩

/-- After a pair and a release all free ports are handed out before the refusal. -/
theorem no_port_lost_pair :
    ∃ ports : List Nat, ports.Nodup ∧
      (∀ p, p ∈ ports ↔ p ∈ Set.Icc 50000 50003 ∧
        p ∉ ([.allocateEven true 7, .release 50001].foldl step (init 50000 50003 [(1, 3)])).held) ∧
      ([.allocateEven true 7, .release 50001].foldl step
        (init 50000 50003 [(1, 3)])).allocations (ports.length + 1) = ports.map (↑) ++ [-1] := by
  have hcreate : create 50000 50003 [(1, 3)] = some (init 50000 50003 [(1, 3)]) := rfl
  exact no_port_lost (by decide) (by decide) hcreate
    ⟨by decide +kernel, by decide +kernel, trivial⟩

end Runs

end Turnports

end WebrtcCaller.Turn
