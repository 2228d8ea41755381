import Mathlib
import WebrtcCaller.Core.Run

/-!
# The relay port pool

`turn_ports.c` keeps the free ports of one relay address in a ring of `2 ^ 16` slots between two
32-bit counters. The status of a free port is its place in the ring; a taken port has one of three
marks instead. Taking the odd port of a pair leaves its slot behind, and such stale slots are
skipped when they reach the front.
-/

namespace WebrtcCaller.Turn

/-- The marks `TPS_*`, as unsigned 32-bit values. -/
def tpsOutOfRange : Nat := 2 ^ 32 - 1
@[inherit_doc tpsOutOfRange]
def tpsTakenSingle : Nat := 2 ^ 32 - 2
@[inherit_doc tpsOutOfRange]
def tpsTakenEven : Nat := 2 ^ 32 - 3
@[inherit_doc tpsOutOfRange]
def tpsTakenOdd : Nat := 2 ^ 32 - 4

/-- The pool of one address. -/
structure Turnports where
  status : Nat → Nat
  low : Nat
  high : Nat
  rangeStart : Nat
  rangeStop : Nat
  ports : Nat → Nat

/-- The reservation token written for a pair: two ring entries and a random word. -/
structure ReservationToken where
  atLow : Nat
  atHigh : Nat
  random : Nat

/-- The port is out of the ring by any of the three marks. -/
def isTaken (status : Nat) : Bool :=
  status == tpsTakenSingle || status == tpsTakenEven || status == tpsTakenOdd

namespace Turnports

/-- One round of the shuffle: two ports of the range exchange their places. -/
def exchange (size : Nat) (tp : Turnports) (random : Nat × Nat) : Turnports :=
  let port1 := (tp.low + random.1 % size % 2 ^ 16) % 2 ^ 16
  let port2 := (tp.low + random.2 % size % 2 ^ 16) % 2 ^ 16
  if port1 ≠ port2 then
    let pos1 := tp.status port1
    let pos2 := tp.status port2
    { tp with
      status := Function.update (Function.update tp.status port1 pos2) port2 pos1
      ports :=
        Function.update (Function.update tp.ports pos1 (tp.ports pos2)) pos2 (tp.ports pos1) }
  else tp

/-- The shuffle, with the values `turn_random` returns; the source draws ten pairs for each
port. -/
def randomize (tp : Turnports) (random : List (Nat × Nat)) : Turnports :=
  random.foldl (exchange (tp.high - tp.low)) tp

/-- `turnports_init`: the ports of the range in order, then shuffled. -/
def init (start stop : Nat) (random : List (Nat × Nat)) : Turnports :=
  randomize
    { low := start
      high := stop + 1
      rangeStart := start
      rangeStop := stop
      status := fun i => if i < start then tpsOutOfRange else if i ≤ stop then i else tpsOutOfRange
      ports := fun i => i }
    random

/-- `turnports_create`; an empty range has no pool. -/
def create (start stop : Nat) (random : List (Nat × Nat)) : Option Turnports :=
  if start > stop then none else some (init start stop random)

/-- `turnports_size`. -/
def size (tp : Turnports) : Nat := (tp.high - tp.low) % 2 ^ 16

/-- The loop of `turnports_allocate`. The window `[low, high)` shrinks in every round, so its
length is fuel enough. -/
def allocateLoop : Nat → Turnports → Int × Turnports
  | 0, tp => (-1, tp)
  | fuel + 1, tp =>
    if tp.high ≤ tp.low then (-1, tp)
    else
      let port := tp.ports (tp.low % 2 ^ 16)
      if port < tp.rangeStart ∨ tp.rangeStop < port then (-1, tp)
      else if isTaken (tp.status port) then
        allocateLoop fuel { tp with low := (tp.low + 1) % 2 ^ 32 }
      else if tp.status port ≠ tp.low then
        allocateLoop fuel { tp with low := (tp.low + 1) % 2 ^ 32 }
      else
        (port, { tp with
          status := Function.update tp.status port tpsTakenSingle
          low := (tp.low + 1) % 2 ^ 32 })

/-- `turnports_allocate`. -/
def allocate (tp : Turnports) : Int × Turnports := allocateLoop (tp.high - tp.low) tp

/-- `turnports_release`: only a port of the range that is taken goes back. -/
def release (tp : Turnports) (port : Nat) : Turnports :=
  if tp.rangeStart ≤ port ∧ port ≤ tp.rangeStop then
    if isTaken (tp.status port) then
      { tp with
        status := Function.update tp.status port tp.high
        ports := Function.update tp.ports (tp.high % 2 ^ 16) port
        high := (tp.high + 1) % 2 ^ 32 }
    else tp
  else tp

/-- `turnports_is_available`. -/
def isAvailable (tp : Turnports) (port : Nat) : Bool :=
  tp.status port != tpsOutOfRange && !isTaken (tp.status port) &&
    tp.ports (tp.status port % 2 ^ 16) == port

/-- The marks of a pair, and its reservation token. -/
def takePair (tp : Turnports) (port : Nat) : Turnports :=
  { tp with
    status := Function.update (Function.update tp.status port tpsTakenEven) (port + 1)
      tpsTakenOdd }

/-- The token of a reserved pair. -/
def reservationToken (tp : Turnports) (random : Nat) : ReservationToken where
  atLow := tp.ports (tp.low % 2 ^ 16)
  atHigh := tp.ports (tp.high % 2 ^ 16)
  random := random

/-- The rounds of `turnports_allocate_even`. A failed allocation answers `-1`, whose last bit is
set: it takes the branch of an odd port, and the release is of `(uint16_t)(-1)`. -/
def allocateEvenLoop (allocateRtcp : Bool) (random : Nat) :
    Nat → Turnports → Int × Option ReservationToken × Turnports
  | 0, tp => (-1, none, tp)
  | rounds + 1, tp =>
    let (port, tp) := tp.allocate
    if port % 2 = 1 then
      allocateEvenLoop allocateRtcp random rounds (tp.release (port % 2 ^ 16).toNat)
    else if !allocateRtcp then (port, none, tp)
    else if (tp.rangeStop : Int) < port + 1 then
      allocateEvenLoop allocateRtcp random rounds (tp.release (port % 2 ^ 16).toNat)
    else if !tp.isAvailable ((port + 1) % 2 ^ 16).toNat then
      allocateEvenLoop allocateRtcp random rounds (tp.release (port % 2 ^ 16).toNat)
    else
      let taken := tp.takePair port.toNat
      (port, some (taken.reservationToken random), taken)

/-- `turnports_allocate_even`. -/
def allocateEven (tp : Turnports) (allocateRtcp : Bool) (random : Nat) :
    Int × Option ReservationToken × Turnports :=
  if 1 < tp.size then allocateEvenLoop allocateRtcp random tp.size tp else (-1, none, tp)

/-- The ports a pool may give out. -/
def InRange (tp : Turnports) (port : Nat) : Prop := tp.rangeStart ≤ port ∧ port ≤ tp.rangeStop

/-- The ring invariant. Every free port stands at its own place in the window; what is left of
the window are stale slots of odd ports, and a stale slot is passed before the port below it is
given out again. -/
structure Valid (tp : Turnports) : Prop where
  low_le : tp.low ≤ tp.high
  high_le : tp.high ≤ 2 ^ 32 - 4
  stop_lt : tp.rangeStop < 2 ^ 16
  narrow : 3 * (tp.rangeStop + 1 - tp.rangeStart) ≤ 2 * 65535
  free_place : ∀ port, tp.InRange port → isTaken (tp.status port) = false →
    tp.low ≤ tp.status port ∧ tp.status port < tp.high ∧
      tp.ports (tp.status port % 2 ^ 16) = port
  slot_range : ∀ i, tp.low ≤ i → i < tp.high → tp.InRange (tp.ports (i % 2 ^ 16))
  stale_odd : ∀ i, tp.low ≤ i → i < tp.high → ∀ port, tp.ports (i % 2 ^ 16) = port →
    tp.status port ≠ i → port % 2 = 1 ∧ tp.rangeStart ≤ port - 1 ∧
      (isTaken (tp.status (port - 1)) = true ∨ i < tp.status (port - 1))
  stale_once : ∀ i j, tp.low ≤ i → i < tp.high → tp.low ≤ j → j < tp.high →
    tp.ports (i % 2 ^ 16) = tp.ports (j % 2 ^ 16) → tp.status (tp.ports (i % 2 ^ 16)) ≠ i →
      tp.status (tp.ports (i % 2 ^ 16)) ≠ j → i = j

/-- The marks lie above every ring place. -/
theorem isTaken_eq_true {status : Nat} (h : isTaken status = true) :
    2 ^ 32 - 4 ≤ status ∧ status < tpsOutOfRange := by
  simp only [isTaken, tpsTakenSingle, tpsTakenEven, tpsTakenOdd, Bool.or_eq_true,
    beq_iff_eq] at h
  unfold tpsOutOfRange
  omega

/-- A position in the ring is no mark. -/
theorem isTaken_eq_false {status : Nat} (h : status < 2 ^ 32 - 4) : isTaken status = false := by
  by_contra hn
  have := isTaken_eq_true (Bool.eq_true_of_not_eq_false hn)
  omega

@[simp] theorem isTaken_single : isTaken tpsTakenSingle = true := by decide

@[simp] theorem isTaken_even : isTaken tpsTakenEven = true := by decide

@[simp] theorem isTaken_odd : isTaken tpsTakenOdd = true := by decide

section Window

variable {tp : Turnports}

/-- Live slots name different ports, stale slots name different odd ports with the port below
in range: the window is shorter than the ring. -/
theorem Valid.window (h : tp.Valid) : tp.high - tp.low < 2 ^ 16 := by
  -- a live slot is sent to its port, a stale one behind the range, to half its port
  let place : Nat → Nat := fun i =>
    if tp.status (tp.ports (i % 2 ^ 16)) = i then tp.ports (i % 2 ^ 16)
    else tp.rangeStop + 1 + tp.ports (i % 2 ^ 16) / 2
  have hcard : (Finset.Ico tp.low tp.high).card ≤
      (Finset.Icc tp.rangeStart tp.rangeStop ∪
        Finset.Icc (tp.rangeStop + 1 + (tp.rangeStart + 1) / 2)
          (tp.rangeStop + 1 + (tp.rangeStop - 1) / 2)).card := by
    apply Finset.card_le_card_of_injOn place
    · intro i hi
      rw [Finset.mem_coe, Finset.mem_Ico] at hi
      obtain ⟨hstart, hstop⟩ := h.slot_range i hi.1 hi.2
      simp only [place, Finset.coe_union, Finset.coe_Icc, Set.mem_union, Set.mem_Icc]
      split_ifs with hlive
      · exact Or.inl ⟨hstart, hstop⟩
      · obtain ⟨hodd, hbelow, -⟩ := h.stale_odd i hi.1 hi.2 _ rfl hlive
        omega
    · intro i hi j hj hij
      rw [Finset.mem_coe, Finset.mem_Ico] at hi hj
      obtain ⟨-, hi'⟩ := h.slot_range i hi.1 hi.2
      obtain ⟨-, hj'⟩ := h.slot_range j hj.1 hj.2
      simp only [place] at hij
      split_ifs at hij with hlive hlive' hlive'
      · rw [← hlive, hij, hlive']
      · omega
      · omega
      · have hoi := (h.stale_odd i hi.1 hi.2 _ rfl hlive).1
        have hoj := (h.stale_odd j hj.1 hj.2 _ rfl hlive').1
        have heq : tp.ports (i % 2 ^ 16) = tp.ports (j % 2 ^ 16) := by omega
        exact h.stale_once i j hi.1 hi.2 hj.1 hj.2 heq hlive (heq ▸ hlive')
  have hunion := Finset.card_union_le (Finset.Icc tp.rangeStart tp.rangeStop)
    (Finset.Icc (tp.rangeStop + 1 + (tp.rangeStart + 1) / 2)
      (tp.rangeStop + 1 + (tp.rangeStop - 1) / 2))
  simp only [Nat.card_Icc, Nat.card_Ico] at hcard hunion
  have := h.narrow
  omega

/-- Two places of a window, its end included, that share a ring slot are the same. -/
theorem Valid.slot_inj (h : tp.Valid) {i j : Nat} (hi : tp.low ≤ i) (hi' : i ≤ tp.high)
    (hj : tp.low ≤ j) (hj' : j ≤ tp.high) (hij : i % 2 ^ 16 = j % 2 ^ 16) : i = j := by
  have := h.window
  omega

end Window

section Operations

variable {tp : Turnports}

/-- A taken port that is given back goes to the end of the window. -/
theorem release_taken {port : Nat} (hr : tp.InRange port)
    (ht : isTaken (tp.status port) = true) (hh : tp.high < 2 ^ 32 - 1) :
    tp.release port = { tp with
      status := Function.update tp.status port tp.high
      ports := Function.update tp.ports (tp.high % 2 ^ 16) port
      high := tp.high + 1 } := by
  unfold InRange at hr
  rw [release, if_pos hr, if_pos ht, Nat.mod_eq_of_lt (by omega)]

/-- Giving back what is not taken, or not of the range, does nothing. -/
theorem release_of_not {port : Nat} (h : ¬ (tp.InRange port ∧ isTaken (tp.status port) = true)) :
    tp.release port = tp := by
  unfold InRange at h
  unfold release
  split_ifs with hr ht
  · exact absurd ⟨hr, ht⟩ h
  · rfl
  · rfl

/-- Where the port had another mark before, what is not a mark now was none before. -/
theorem ne_of_update_ne {status : Nat → Nat} {port mark i q : Nat} (hport : status port ≠ i)
    (h : Function.update status port mark q ≠ i) : status q ≠ i := by
  by_cases he : q = port
  · rwa [he]
  · rwa [Function.update_of_ne he] at h

/-- A port that was taken may be put back at the end. -/
theorem Valid.push (h : tp.Valid) {port : Nat} (hr : tp.InRange port)
    (ht : isTaken (tp.status port) = true) (hh : tp.high < 2 ^ 32 - 4) :
    Valid { tp with
      status := Function.update tp.status port tp.high
      ports := Function.update tp.ports (tp.high % 2 ^ 16) port
      high := tp.high + 1 } := by
  have hlow := h.low_le
  have hmark := (isTaken_eq_true ht).1
  have hold : ∀ i, tp.low ≤ i → i < tp.high →
      Function.update tp.ports (tp.high % 2 ^ 16) port (i % 2 ^ 16) = tp.ports (i % 2 ^ 16) := by
    intro i hi hi'
    apply Function.update_of_ne
    intro he
    have := h.slot_inj hi hi'.le hlow le_rfl he
    omega
  -- a slot below the old end that is stale now was stale before
  have hwas : ∀ i, i < tp.high → ∀ q, Function.update tp.status port tp.high q ≠ i →
      tp.status q ≠ i :=
    fun i hi q hq => ne_of_update_ne (by omega) hq
  have hnew : ∀ i, tp.low ≤ i → i < tp.high + 1 →
      Function.update tp.status port tp.high
        (Function.update tp.ports (tp.high % 2 ^ 16) port (i % 2 ^ 16)) ≠ i → i < tp.high := by
    intro i hi hi' hne
    by_contra hn
    have he : i = tp.high := by omega
    subst he
    simp at hne
  constructor
  · exact Nat.le_succ_of_le hlow
  · exact hh
  · exact h.stop_lt
  · exact h.narrow
  · intro q hq hfree
    by_cases he : q = port
    · subst he
      simp only [Function.update_self]
      exact ⟨hlow, Nat.lt_succ_self _, trivial⟩
    · simp only [Function.update_of_ne he] at hfree ⊢
      obtain ⟨h1, h2, h3⟩ := h.free_place q hq hfree
      exact ⟨h1, Nat.lt_succ_of_lt h2, (hold _ h1 h2).trans h3⟩
  · intro i hi hi'
    by_cases he : i < tp.high
    · simp only [hold i hi he]
      exact h.slot_range i hi he
    · have hend : i = tp.high := by
        simp only at hi'
        omega
      subst hend
      simp only [Function.update_self]
      exact hr
  · intro i hi hi' q hq hne
    subst hq
    have hlt := hnew i hi hi' hne
    have hsame := hold i hi hlt
    simp only [hsame] at hne ⊢
    obtain ⟨hodd, hstart, hbelow⟩ := h.stale_odd i hi hlt _ rfl (hwas i hlt _ hne)
    refine ⟨hodd, hstart, ?_⟩
    by_cases he : tp.ports (i % 2 ^ 16) - 1 = port
    · rw [he, Function.update_self]
      exact Or.inr hlt
    · rwa [Function.update_of_ne he]
  · intro i j hi hi' hj hj' hij hni hnj
    have hlti := hnew i hi hi' hni
    simp only at hij hni hnj
    have hltj := hnew j hj hj' (by rwa [← hij])
    simp only [hold i hi hlti, hold j hj hltj] at hij hni hnj
    exact h.stale_once i j hi hlti hj hltj hij (hwas i hlti _ hni) (hwas j hltj _ hnj)

/-- A stale slot at the front may be passed. -/
theorem Valid.skip (h : tp.Valid) (hlt : tp.low < tp.high)
    (hstale : tp.status (tp.ports (tp.low % 2 ^ 16)) ≠ tp.low) :
    Valid { tp with low := tp.low + 1 } := by
  constructor
  · exact hlt
  · exact h.high_le
  · exact h.stop_lt
  · exact h.narrow
  · intro q hq hfree
    obtain ⟨h1, h2, h3⟩ := h.free_place q hq hfree
    have hne : tp.status q ≠ tp.low := by
      intro he
      rw [he] at h3
      rw [h3] at hstale
      exact hstale he
    simp only
    omega
  · intro i hi hi'
    exact h.slot_range i (by simp only at hi; omega) hi'
  · intro i hi hi'
    exact h.stale_odd i (by simp only at hi; omega) hi'
  · intro i j hi hi' hj hj'
    exact h.stale_once i j (by simp only at hi; omega) hi' (by simp only at hj; omega) hj'

/-- The port at the front of the window is taken out of it. -/
theorem Valid.take (h : tp.Valid) (hlt : tp.low < tp.high)
    (hlive : tp.status (tp.ports (tp.low % 2 ^ 16)) = tp.low) :
    Valid { tp with
      status := Function.update tp.status (tp.ports (tp.low % 2 ^ 16)) tpsTakenSingle
      low := tp.low + 1 } := by
  generalize hport : tp.ports (tp.low % 2 ^ 16) = port at hlive
  have hwas : ∀ i, tp.low + 1 ≤ i → ∀ q,
      Function.update tp.status port tpsTakenSingle q ≠ i → tp.status q ≠ i :=
    fun i hi q hq => ne_of_update_ne (by omega) hq
  constructor
  · exact hlt
  · exact h.high_le
  · exact h.stop_lt
  · exact h.narrow
  · intro q hq hfree
    by_cases he : q = port
    · subst he
      simp at hfree
    · simp only [Function.update_of_ne he] at hfree ⊢
      obtain ⟨h1, h2, h3⟩ := h.free_place q hq hfree
      have hne : tp.status q ≠ tp.low := by
        intro heq
        rw [heq, hport] at h3
        exact he h3.symm
      exact ⟨by omega, h2, h3⟩
  · intro i hi hi'
    exact h.slot_range i (by simp only at hi; omega) hi'
  · intro i hi hi' q hq hne
    simp only at hi hi' hq hne ⊢
    obtain ⟨hodd, hstart, hbelow⟩ := h.stale_odd i (by omega) hi' q hq (hwas i hi q hne)
    refine ⟨hodd, hstart, ?_⟩
    by_cases he : q - 1 = port
    · rw [he, Function.update_self]
      exact Or.inl isTaken_single
    · rwa [Function.update_of_ne he]
  · intro i j hi hi' hj hj' hij hni hnj
    simp only at hi hj
    exact h.stale_once i j (by omega) hi' (by omega) hj' hij (hwas i hi _ hni) (hwas j hj _ hnj)

/-- The odd port of a pair is marked where it stands. Its slot stays behind as the only stale one
of the port, and the even port below it is taken. -/
theorem Valid.takePair (h : tp.Valid) {port : Nat} (hr : tp.InRange port)
    (heven : port % 2 = 0) (ht : isTaken (tp.status port) = true)
    (hfresh : ∀ i, tp.low ≤ i → i < tp.high → tp.ports (i % 2 ^ 16) = port + 1 →
      tp.status (port + 1) = i) :
    (tp.takePair port).Valid := by
  have hmark := (isTaken_eq_true ht).1
  have hhigh := h.high_le
  let status' := Function.update (Function.update tp.status port tpsTakenEven) (port + 1)
    tpsTakenOdd
  have hodd : status' (port + 1) = tpsTakenOdd := Function.update_self ..
  have hself : status' port = tpsTakenEven := by
    simp only [status']
    rw [Function.update_of_ne (by omega), Function.update_self]
  have hother : ∀ q, q ≠ port → q ≠ port + 1 → status' q = tp.status q := by
    intro q h1 h2
    simp only [status']
    rw [Function.update_of_ne h2, Function.update_of_ne h1]
  have hwas : ∀ i, tp.low ≤ i → i < tp.high → ∀ q, q ≠ port + 1 →
      status' q ≠ i → tp.status q ≠ i := by
    intro i hi hi' q hq hne
    by_cases he : q = port
    · subst he
      omega
    · rwa [hother q he hq] at hne
  have htaken : ∀ q, isTaken (tp.status q) = true → isTaken (status' q) = true := by
    intro q hq
    by_cases h1 : q = port
    · rw [h1, hself, isTaken_even]
    · by_cases h2 : q = port + 1
      · rw [h2, hodd, isTaken_odd]
      · rwa [hother q h1 h2]
  constructor
  · exact h.low_le
  · exact hhigh
  · exact h.stop_lt
  · exact h.narrow
  · intro q hq hfree
    change isTaken (status' q) = false at hfree
    have h1 : q ≠ port := by
      intro he
      rw [he, hself] at hfree
      simp at hfree
    have h2 : q ≠ port + 1 := by
      intro he
      rw [he, hodd] at hfree
      simp at hfree
    change tp.low ≤ status' q ∧ status' q < tp.high ∧ tp.ports (status' q % 2 ^ 16) = q
    rw [hother q h1 h2] at hfree ⊢
    exact h.free_place q hq hfree
  · exact h.slot_range
  · intro i hi hi' q hq hne
    change status' q ≠ i at hne
    change q % 2 = 1 ∧ tp.rangeStart ≤ q - 1 ∧ (isTaken (status' (q - 1)) = true ∨
      i < status' (q - 1))
    by_cases h2 : q = port + 1
    · subst h2
      rw [Nat.add_sub_cancel, hself]
      exact ⟨by omega, hr.1, Or.inl isTaken_even⟩
    · obtain ⟨hoddq, hstart, hbelow⟩ := h.stale_odd i hi hi' q hq (hwas i hi hi' q h2 hne)
      refine ⟨hoddq, hstart, ?_⟩
      by_cases he : q - 1 = port
      · rw [he, hself]
        exact Or.inl isTaken_even
      · rw [hother (q - 1) he (by omega)]
        exact hbelow
  · intro i j hi hi' hj hj' hij hni hnj
    change status' (tp.ports (i % 2 ^ 16)) ≠ i at hni
    change status' (tp.ports (i % 2 ^ 16)) ≠ j at hnj
    change tp.ports (i % 2 ^ 16) = tp.ports (j % 2 ^ 16) at hij
    by_cases h2 : tp.ports (i % 2 ^ 16) = port + 1
    · rw [← hfresh i hi hi' h2, ← hfresh j hj hj' (hij ▸ h2)]
    · exact h.stale_once i j hi hi' hj hj' hij (hwas i hi hi' _ h2 hni) (hwas j hj hj' _ h2 hnj)

end Operations

/-- What `turnports_allocate` can answer: the window is empty and nothing was free, or the first
free port of the window, which leaves no stale slot of the port above it behind. -/
inductive Allocated (tp : Turnports) : Int × Turnports → Prop
  | none : (∀ port, tp.InRange port → isTaken (tp.status port) = true) →
      Valid { tp with low := tp.high } → Allocated tp (-1, { tp with low := tp.high })
  | port {port low : Nat} : tp.InRange port → isTaken (tp.status port) = false → tp.low < low →
      Valid { tp with status := Function.update tp.status port tpsTakenSingle, low := low } →
      (∀ i, low ≤ i → i < tp.high → tp.ports (i % 2 ^ 16) = port + 1 →
        tp.status (port + 1) = i) →
      Allocated tp (port,
        { tp with status := Function.update tp.status port tpsTakenSingle, low := low })

section Allocation

variable {tp : Turnports}

/-- Passing stale slots first changes no answer. -/
theorem Allocated.of_skip {low : Nat} {r : Int × Turnports} (hlow : tp.low ≤ low)
    (h : Allocated { tp with low := low } r) : Allocated tp r := by
  cases h with
  | none htaken hvalid => exact .none htaken hvalid
  | port hr hfree hlt hvalid hfresh => exact .port hr hfree (lt_of_le_of_lt hlow hlt) hvalid hfresh

/-- The window holds a free port exactly when there is one. -/
theorem Valid.all_taken (h : tp.Valid) (he : tp.high ≤ tp.low) {port : Nat}
    (hr : tp.InRange port) : isTaken (tp.status port) = true := by
  by_contra hn
  obtain ⟨h1, h2, -⟩ := h.free_place port hr (Bool.eq_false_of_not_eq_true hn)
  omega

/-- The allocation takes the first port it finds free. -/
theorem allocateLoop_spec (fuel : Nat) {tp : Turnports} (h : tp.Valid)
    (hfuel : tp.high - tp.low = fuel) : Allocated tp (allocateLoop fuel tp) := by
  induction fuel generalizing tp with
  | zero =>
    have hle := h.low_le
    have he : tp.low = tp.high := by omega
    have hsame : { tp with low := tp.high } = tp := by
      cases tp
      simp_all
    have hnone : tp.Allocated _ := .none (fun _ hr => h.all_taken (by omega) hr)
      (hsame.symm ▸ h)
    rwa [hsame] at hnone
  | succ fuel ih =>
    have hhigh := h.high_le
    have hlt : tp.low < tp.high := by omega
    have hr := h.slot_range tp.low le_rfl hlt
    have hnext : (tp.low + 1) % 2 ^ 32 = tp.low + 1 := Nat.mod_eq_of_lt (by omega)
    have hout : ¬ (tp.ports (tp.low % 2 ^ 16) < tp.rangeStart ∨
        tp.rangeStop < tp.ports (tp.low % 2 ^ 16)) := by
      unfold InRange at hr
      omega
    have hskip : tp.status (tp.ports (tp.low % 2 ^ 16)) ≠ tp.low →
        Allocated tp (allocateLoop fuel { tp with low := tp.low + 1 }) := by
      intro hstale
      apply Allocated.of_skip (Nat.le_succ tp.low)
      apply ih (h.skip hlt hstale)
      simp only
      omega
    rw [allocateLoop, if_neg (by omega)]
    simp only [if_neg hout, hnext]
    split_ifs with htaken hlive
    · apply hskip
      have := (isTaken_eq_true htaken).1
      omega
    · exact hskip hlive
    · rw [not_not] at hlive
      apply Allocated.port hr (Bool.eq_false_of_not_eq_true htaken) (Nat.lt_succ_self _)
        (h.take hlt hlive)
      intro i hi hi' hport
      by_contra hne
      -- a stale slot of the port above is passed before this port comes to the front
      obtain ⟨-, -, hbelow⟩ := h.stale_odd i (by omega) hi' _ hport hne
      rw [Nat.add_sub_cancel] at hbelow
      rcases hbelow with hb | hb
      · exact htaken hb
      · omega

/-- An allocation takes a free port, if there is one. -/
theorem allocate_spec (h : tp.Valid) : Allocated tp tp.allocate :=
  allocateLoop_spec _ h rfl

end Allocation

section Creation

/-- The state of a pool while it is shuffled: every port of the range has its place there. -/
structure Shuffled (start stop : Nat) (tp : Turnports) : Prop where
  low : tp.low = start
  high : tp.high = stop + 1
  rangeStart : tp.rangeStart = start
  rangeStop : tp.rangeStop = stop
  place : ∀ port, start ≤ port → port ≤ stop →
    start ≤ tp.status port ∧ tp.status port ≤ stop ∧ tp.ports (tp.status port) = port
  port : ∀ i, start ≤ i → i ≤ stop →
    start ≤ tp.ports i ∧ tp.ports i ≤ stop ∧ tp.status (tp.ports i) = i

/-- An exchange of two ports keeps them shuffled. -/
theorem Shuffled.exchange {start stop : Nat} {tp : Turnports} (hle : start ≤ stop)
    (hstop : stop < 2 ^ 16) (h : Shuffled start stop tp) (random : Nat × Nat) :
    Shuffled start stop (exchange (stop + 1 - start) tp random) := by
  have hmod : ∀ r, start ≤ (tp.low + r % (stop + 1 - start) % 2 ^ 16) % 2 ^ 16 ∧
      (tp.low + r % (stop + 1 - start) % 2 ^ 16) % 2 ^ 16 ≤ stop := by
    intro r
    have hr : r % (stop + 1 - start) < stop + 1 - start := Nat.mod_lt _ (by omega)
    rw [h.low]
    omega
  obtain ⟨hs1, he1⟩ := hmod random.1
  obtain ⟨hs2, he2⟩ := hmod random.2
  unfold Turnports.exchange
  simp only
  generalize (tp.low + random.1 % (stop + 1 - start) % 2 ^ 16) % 2 ^ 16 = port1 at hs1 he1 ⊢
  generalize (tp.low + random.2 % (stop + 1 - start) % 2 ^ 16) % 2 ^ 16 = port2 at hs2 he2 ⊢
  split_ifs with hne
  swap
  · exact h
  obtain ⟨hl1, hu1, hp1⟩ := h.place port1 hs1 he1
  obtain ⟨hl2, hu2, hp2⟩ := h.place port2 hs2 he2
  have hpos : tp.status port1 ≠ tp.status port2 := by
    intro he
    rw [he, hp2] at hp1
    exact hne hp1.symm
  refine ⟨h.low, h.high, h.rangeStart, h.rangeStop, ?_, ?_⟩
  · intro port hs he
    obtain ⟨hl, hu, hp⟩ := h.place port hs he
    have hinj : ∀ q, start ≤ q → q ≤ stop → tp.status port = tp.status q → port = q := by
      intro q hq hq' heq
      rw [← hp, heq, (h.place q hq hq').2.2]
    simp only [Function.update_apply, hp1, hp2]
    split_ifs <;> simp_all
  · intro i hs he
    obtain ⟨hl, hu, hi⟩ := h.port i hs he
    simp only [Function.update_apply, hp1, hp2]
    split_ifs <;> simp_all

theorem Shuffled.randomize {start stop : Nat} {tp : Turnports} (hle : start ≤ stop)
    (hstop : stop < 2 ^ 16) (h : Shuffled start stop tp) (random : List (Nat × Nat)) :
    Shuffled start stop (tp.randomize random) := by
  have hsize : tp.high - tp.low = stop + 1 - start := by rw [h.high, h.low]
  unfold Turnports.randomize
  rw [hsize]
  clear hsize
  induction random generalizing tp with
  | nil => exact h
  | cons r random ih => exact ih (h.exchange hle hstop r)

theorem shuffled_init {start stop : Nat} (hle : start ≤ stop) (hstop : stop < 2 ^ 16)
    (random : List (Nat × Nat)) : Shuffled start stop (init start stop random) := by
  apply Shuffled.randomize hle hstop
  refine ⟨rfl, rfl, rfl, rfl, ?_, ?_⟩
  · intro port hs he
    simp only [if_neg (Nat.not_lt.mpr hs), if_pos he]
    exact ⟨hs, he, trivial⟩
  · intro i hs he
    simp only [if_neg (Nat.not_lt.mpr hs), if_pos he]
    exact ⟨hs, he, trivial⟩

/-- A pool starts with every port of its range free and no stale slot. -/
theorem Shuffled.valid {start stop : Nat} {tp : Turnports} (hstop : stop < 2 ^ 16)
    (hnarrow : 3 * (stop + 1 - start) ≤ 2 * 65535) (hle : start ≤ stop)
    (h : Shuffled start stop tp) : tp.Valid := by
  have hslot : ∀ i, tp.low ≤ i → i < tp.high → i % 2 ^ 16 = i ∧ start ≤ i ∧ i ≤ stop := by
    intro i hi hi'
    rw [h.low] at hi
    rw [h.high] at hi'
    omega
  have hlive : ∀ i, tp.low ≤ i → i < tp.high → tp.status (tp.ports (i % 2 ^ 16)) = i := by
    intro i hi hi'
    obtain ⟨hmod, hs, he⟩ := hslot i hi hi'
    rw [hmod, (h.port i hs he).2.2]
  constructor
  · rw [h.low, h.high]
    omega
  · rw [h.high]
    omega
  · rw [h.rangeStop]
    exact hstop
  · rw [h.rangeStop, h.rangeStart]
    exact hnarrow
  · intro port hr _
    unfold InRange at hr
    rw [h.rangeStart, h.rangeStop] at hr
    obtain ⟨hl, hu, hp⟩ := h.place port hr.1 hr.2
    rw [h.low, h.high, Nat.mod_eq_of_lt (by omega)]
    exact ⟨hl, by omega, hp⟩
  · intro i hi hi'
    obtain ⟨hmod, hs, he⟩ := hslot i hi hi'
    unfold InRange
    rw [hmod, h.rangeStart, h.rangeStop]
    exact ⟨(h.port i hs he).1, (h.port i hs he).2.1⟩
  · intro i hi hi' port hport hne
    subst hport
    exact absurd (hlive i hi hi') hne
  · intro i j hi hi' _ _ _ hne _
    exact absurd (hlive i hi hi') hne

end Creation

end Turnports

end WebrtcCaller.Turn
