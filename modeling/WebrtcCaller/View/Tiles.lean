import Mathlib

/-!
# The tiles of a group call

`WidthUtil` computes the side and the corner of each video tile in `int` arithmetic, by
three separate case distinctions. Together they draw a stack of rows: every row spaces
its tiles by at least their side, and so do the rows themselves. Tiles of such a stack
never overlap, whatever the roundings are.
-/

namespace WebrtcCaller

/-- An axis-parallel square of the plane, by its upper left corner. -/
structure Square where
  x : Int
  y : Int
  side : Int

namespace Square

/-- The points of a square, its border included. -/
def region (s : Square) : Set (ℝ × ℝ) :=
  Set.Icc (s.x : ℝ) (s.x + s.side) ×ˢ Set.Icc (s.y : ℝ) (s.y + s.side)

/-- The interior of a square is an open square. -/
theorem interior_region (s : Square) : interior s.region =
    Set.Ioo (s.x : ℝ) (s.x + s.side) ×ˢ Set.Ioo (s.y : ℝ) (s.y + s.side) := by
  rw [region, interior_prod_eq, interior_Icc, interior_Icc]

/-- A square whose corners are on the screen is on the screen. -/
theorem region_subset {s : Square} {w : Int} (hx : 0 ≤ s.x) (hx' : s.x + s.side ≤ w)
    (hy : 0 ≤ s.y) (hy' : s.y + s.side ≤ w) : s.region ⊆ (⟨0, 0, w⟩ : Square).region := by
  refine Set.prod_mono (Set.Icc_subset_Icc ?_ ?_) (Set.Icc_subset_Icc ?_ ?_)
  · exact_mod_cast hx
  · simpa using (show ((s.x + s.side : Int) : ℝ) ≤ w from Int.cast_le.mpr hx')
  · exact_mod_cast hy
  · simpa using (show ((s.y + s.side : Int) : ℝ) ≤ w from Int.cast_le.mpr hy')

/-- The square `t` comes after `s` in its row, or in a later row. -/
def Before (s t : Square) : Prop := s.x + s.side ≤ t.x ∨ s.y + s.side ≤ t.y

/-- Intervals that follow one another share no inner point. -/
theorem disjoint_Ioo {a b c d : Int} (h : a + b ≤ c) :
    Disjoint (Set.Ioo (a : ℝ) (a + b)) (Set.Ioo (c : ℝ) (c + d)) := by
  refine Set.disjoint_left.mpr fun r hr hr' => ?_
  have hle : ((a + b : Int) : ℝ) ≤ c := Int.cast_le.mpr h
  rw [Int.cast_add] at hle
  exact absurd (hr.2.trans_le hle) (not_lt.mpr hr'.1.le)

/-- Squares that come one before the other share no inner point. -/
theorem Before.disjoint {s t : Square} (h : s.Before t) :
    Disjoint (interior s.region) (interior t.region) := by
  rw [interior_region, interior_region, Set.disjoint_prod]
  exact h.imp disjoint_Ioo disjoint_Ioo

/-- A stack of rows, each with its height and the left edges of its squares. -/
def stack (side : Int) (rows : List (Int × List Int)) : List Square :=
  rows.flatMap fun row => row.2.map fun x => ⟨x, row.1, side⟩

/-- Rows on a screen of width `w` that are spaced by the side of their squares, as are the squares
of every row. -/
structure Spaced (w side : Int) (rows : List (Int × List Int)) : Prop where
  rows_apart : rows.Pairwise fun row row' => row.1 + side ≤ row'.1
  lefts_apart : ∀ row ∈ rows, row.2.Pairwise fun x x' => x + side ≤ x'
  rows_inside : ∀ row ∈ rows, 0 ≤ row.1 ∧ row.1 + side ≤ w
  lefts_inside : ∀ row ∈ rows, ∀ x ∈ row.2, 0 ≤ x ∧ x + side ≤ w

namespace Spaced

variable {w side : Int} {rows : List (Int × List Int)} (h : Spaced w side rows)
include h

/-- Each square comes before all that follow it. -/
theorem pairwise : (stack side rows).Pairwise Before := by
  refine List.pairwise_flatMap.mpr ⟨fun row hrow => ?_, h.rows_apart.imp fun {row row'} hle => ?_⟩
  · exact List.pairwise_map.mpr ((h.lefts_apart row hrow).imp Or.inl)
  · intro s hs t ht
    obtain ⟨x, -, rfl⟩ := List.mem_map.mp hs
    obtain ⟨x', -, rfl⟩ := List.mem_map.mp ht
    exact Or.inr hle

/-- Every square of the stack is on the screen. -/
theorem subset {s : Square} (hs : s ∈ stack side rows) :
    s.region ⊆ (⟨0, 0, w⟩ : Square).region := by
  obtain ⟨row, hrow, hs⟩ := List.mem_flatMap.mp hs
  obtain ⟨x, hx, rfl⟩ := List.mem_map.mp hs
  obtain ⟨hy, hy'⟩ := h.rows_inside row hrow
  obtain ⟨hx, hx'⟩ := h.lefts_inside row hrow x hx
  exact region_subset hx hx' hy hy'

end Spaced

end Square

namespace WidthUtil

/-- `getWidth`. -/
def getWidth (mScreenWidth size : Int32) : Int32 :=
  if size ≤ 4 then mScreenWidth / 2
  else if size ≤ 9 then mScreenWidth / 3
  else mScreenWidth / 3

/-- `getX`: the last rows of three, five, seven and eight are set in the middle. -/
def getX (mScreenWidth size index : Int32) : Int32 :=
  if size ≤ 4 then
    if size = 3 ∧ index = 2 then mScreenWidth / 4
    else index % 2 * mScreenWidth / 2
  else if size ≤ 9 then
    if size = 5 ∧ index = 3 then mScreenWidth / 6
    else if size = 5 ∧ index = 4 then mScreenWidth / 2
    else if size = 7 ∧ index = 6 then mScreenWidth / 3
    else if size = 8 ∧ index = 6 then mScreenWidth / 6
    else if size = 8 ∧ index = 7 then mScreenWidth / 2
    else index % 3 * mScreenWidth / 3
  else 0

/-- `getY`. -/
def getY (mScreenWidth size index : Int32) : Int32 :=
  if size < 3 then mScreenWidth / 4
  else if size < 5 then
    if index < 2 then 0
    else mScreenWidth / 2
  else if size < 7 then
    if index < 3 then mScreenWidth / 2 - mScreenWidth / 3
    else mScreenWidth / 2
  else if size ≤ 9 then
    if index < 3 then 0
    else if index < 6 then mScreenWidth / 3
    else mScreenWidth / 3 * 2
  else 0

/-- The square of the participant `index` of `size`. -/
def tile (mScreenWidth size index : Int32) : Square :=
  ⟨(getX mScreenWidth size index).toInt, (getY mScreenWidth size index).toInt,
    (getWidth mScreenWidth size).toInt⟩

/-- The rows that are drawn for a number of participants on a screen of width `w`. -/
def rows (w : Int) : Nat → List (Int × List Int)
  | 1 => [(w / 4, [0])]
  | 2 => [(w / 4, [0, w / 2])]
  | 3 => [(0, [0, w / 2]), (w / 2, [w / 4])]
  | 4 => [(0, [0, w / 2]), (w / 2, [0, w / 2])]
  | 5 => [(w / 2 - w / 3, [0, w / 3, 2 * w / 3]), (w / 2, [w / 6, w / 2])]
  | 6 => [(w / 2 - w / 3, [0, w / 3, 2 * w / 3]), (w / 2, [0, w / 3, 2 * w / 3])]
  | 7 => [(0, [0, w / 3, 2 * w / 3]), (w / 3, [0, w / 3, 2 * w / 3]), (w / 3 * 2, [w / 3])]
  | 8 => [(0, [0, w / 3, 2 * w / 3]), (w / 3, [0, w / 3, 2 * w / 3]), (w / 3 * 2, [w / 6, w / 2])]
  | 9 => [(0, [0, w / 3, 2 * w / 3]), (w / 3, [0, w / 3, 2 * w / 3]),
      (w / 3 * 2, [0, w / 3, 2 * w / 3])]
  | _ => []

/-- The side of the tiles. -/
def side (w : Int) (n : Nat) : Int := if n ≤ 4 then w / 2 else w / 3

/-- The rows of up to nine members leave room for each other. -/
theorem rows_spaced {w : Int} {n : Nat} (hw : 0 ≤ w) (hpos : 1 ≤ n) (hn : n ≤ 9) :
    Square.Spaced w (side w n) (rows w n) := by
  interval_cases n
  all_goals
    constructor
    all_goals
      simp only [rows, side, List.pairwise_cons, List.Pairwise.nil, List.forall_mem_cons,
        List.not_mem_nil, false_imp_iff, implies_true, Nat.reduceLeDiff, if_true, if_false,
        and_true]
    all_goals omega

section Arithmetic

variable {a b : Int32}

/-- Dividing what is not negative is dividing integers. -/
theorem toInt_div_of_nonneg (ha : 0 ≤ a.toInt) (hb : 0 < b.toInt) :
    (a / b).toInt = a.toInt / b.toInt := by
  have hne : b ≠ -1 := by
    rintro rfl
    exact absurd hb (by decide)
  rw [Int32.toInt_div_of_ne_right a b hne, Int.tdiv_eq_ediv_of_nonneg ha]

/-- A product that fits is a product of integers. -/
theorem toInt_mul_of_lt (h : 0 ≤ a.toInt * b.toInt) (h' : a.toInt * b.toInt < 2 ^ 31) :
    (a * b).toInt = a.toInt * b.toInt := by
  rw [Int32.toInt_mul]
  apply Int.bmod_eq_of_le
  · omega
  · omega

end Arithmetic

section Screen

variable {mScreenWidth : Int32} (hw : 0 ≤ mScreenWidth.toInt) (hw' : mScreenWidth.toInt < 2 ^ 30)
include hw hw'

/-- No rounding or overflow of the `int` arithmetic moves a tile. -/
theorem tile_eq {n i : Nat} (hn : n ≤ 9) (hi : i < n) :
    (Square.stack (side mScreenWidth.toInt n) (rows mScreenWidth.toInt n))[i]? =
      some (tile mScreenWidth (Int32.ofNat n) (Int32.ofNat i)) := by
  have hdiv {b : Int32} (hb : 0 < b.toInt) :
      (mScreenWidth / b).toInt = mScreenWidth.toInt / b.toInt := toInt_div_of_nonneg hw hb
  have h2 : (mScreenWidth / 2).toInt = mScreenWidth.toInt / 2 := hdiv (by decide)
  have h3 : (mScreenWidth / 3).toInt = mScreenWidth.toInt / 3 := hdiv (by decide)
  have h4 : (mScreenWidth / 4).toInt = mScreenWidth.toInt / 4 := hdiv (by decide)
  have h6 : (mScreenWidth / 6).toInt = mScreenWidth.toInt / 6 := hdiv (by decide)
  have hdouble : (2 * mScreenWidth).toInt = 2 * mScreenWidth.toInt :=
    toInt_mul_of_lt (by simp; omega) (by simp; omega)
  have h23 : (2 * mScreenWidth / 3).toInt = 2 * mScreenWidth.toInt / 3 := by
    rw [toInt_div_of_nonneg (by omega) (by decide), hdouble]
    rfl
  have h32 : (mScreenWidth / 3 * 2).toInt = mScreenWidth.toInt / 3 * 2 := by
    rw [toInt_mul_of_lt (by simp [h3]; omega) (by simp [h3]; omega), h3]
    rfl
  have hrise : (mScreenWidth / 2 - mScreenWidth / 3).toInt =
      mScreenWidth.toInt / 2 - mScreenWidth.toInt / 3 := by
    rw [Int32.toInt_sub, h2, h3]
    apply Int.bmod_eq_of_le
    · omega
    · omega
  interval_cases n <;> interval_cases i <;>
    simp [Square.stack, rows, side, tile, getX, getY, getWidth, h2, h3, h4, h6, h23, h32, hrise]

/-- Every tile is on the screen. -/
theorem tile_inside {n i : Nat} (hn : n ≤ 9) (hi : i < n) :
    (tile mScreenWidth (Int32.ofNat n) (Int32.ofNat i)).region ⊆
      (⟨0, 0, mScreenWidth.toInt⟩ : Square).region := by
  have hpos : 1 ≤ n := by omega
  exact (rows_spaced hw hpos hn).subset (List.mem_of_getElem? (tile_eq hw hw' hn hi))

/-- The tiles come one before the other. -/
theorem tile_before {n i j : Nat} (hn : n ≤ 9) (hij : i < j) (hj : j < n) :
    (tile mScreenWidth (Int32.ofNat n) (Int32.ofNat i)).Before
      (tile mScreenWidth (Int32.ofNat n) (Int32.ofNat j)) := by
  have hpos : 1 ≤ n := by omega
  have hstack := (rows_spaced hw hpos hn).pairwise
  obtain ⟨hi', hi⟩ := List.getElem?_eq_some_iff.mp (tile_eq hw hw' hn (hij.trans hj))
  obtain ⟨hj', hj⟩ := List.getElem?_eq_some_iff.mp (tile_eq hw hw' hn hj)
  have hbefore := List.pairwise_iff_getElem.mp hstack i j hi' hj' hij
  rwa [hi, hj] at hbefore

/-- Two tiles share no inner point. -/
theorem tile_disjoint {n i j : Nat} (hn : n ≤ 9) (hi : i < n) (hj : j < n) (hne : i ≠ j) :
    Disjoint (interior (tile mScreenWidth (Int32.ofNat n) (Int32.ofNat i)).region)
      (interior (tile mScreenWidth (Int32.ofNat n) (Int32.ofNat j)).region) := by
  rcases Nat.lt_or_gt_of_ne hne with hlt | hlt
  · exact (tile_before hw hw' hn hlt hj).disjoint
  · exact (tile_before hw hw' hn hlt hi).disjoint.symm

end Screen

/-- A number that is not negative is a natural one. -/
theorem exists_ofNat_of_nonneg {a : Int32} (ha : 0 ≤ a.toInt) :
    ∃ n : Nat, a = Int32.ofNat n ∧ a.toInt = n := by
  have hlt : a.toInt < 2 ^ 31 := Int32.toInt_lt a
  have hn : (a.toInt.toNat : Int) = a.toInt := Int.toNat_of_nonneg ha
  refine ⟨a.toInt.toNat, Int32.toInt_inj.mp ?_, hn.symm⟩
  rw [Int32.toInt_ofNat_of_lt (by omega), hn]

/-- The tiles of up to nine participants lie on the screen and do not overlap. -/
theorem tiles_fit_apart (mScreenWidth size : Int32) (hw : 0 ≤ mScreenWidth)
    (hw' : mScreenWidth.toInt < 2 ^ 30) (hpos : 1 ≤ size) (hsize : size ≤ 9) :
    (∀ index, 0 ≤ index → index < size →
      (tile mScreenWidth size index).region ⊆ (⟨0, 0, mScreenWidth.toInt⟩ : Square).region) ∧
    ∀ i j, 0 ≤ i → i < size → 0 ≤ j → j < size → i ≠ j →
      Disjoint (interior (tile mScreenWidth size i).region)
        (interior (tile mScreenWidth size j).region) := by
  have hw : 0 ≤ mScreenWidth.toInt := Int32.le_iff_toInt_le.mp hw
  have hpos : 1 ≤ size.toInt := Int32.le_iff_toInt_le.mp hpos
  have hsize : size.toInt ≤ 9 := Int32.le_iff_toInt_le.mp hsize
  obtain ⟨n, hn, hn'⟩ := exists_ofNat_of_nonneg (show 0 ≤ size.toInt by omega)
  have hindex {index : Int32} (h : 0 ≤ index) (h' : index < size) :
      ∃ i < n, index = Int32.ofNat i := by
    have hlt : index.toInt < size.toInt := Int32.lt_iff_toInt_lt.mp h'
    obtain ⟨i, hi, hi'⟩ := exists_ofNat_of_nonneg (Int32.le_iff_toInt_le.mp h)
    exact ⟨i, by omega, hi⟩
  subst hn
  constructor
  · intro index h h'
    obtain ⟨i, hi, rfl⟩ := hindex h h'
    exact tile_inside hw hw' (by omega) hi
  · intro i j hi hi' hj hj' hne
    obtain ⟨i, hlt, rfl⟩ := hindex hi hi'
    obtain ⟨j, hlt', rfl⟩ := hindex hj hj'
    exact tile_disjoint hw hw' (by omega) hlt hlt' (mt (congrArg Int32.ofNat) hne)

/-- Five participants on a screen of a width that neither two nor three divides. -/
theorem tiles_of_five :
    (tile 1079 5 3).region ⊆ (⟨0, 0, 1079⟩ : Square).region ∧
      Disjoint (interior (tile 1079 5 1).region) (interior (tile 1079 5 3).region) := by
  have h := tiles_fit_apart 1079 5 (by decide) (by decide) (by decide) (by decide)
  exact ⟨h.1 3 (by decide) (by decide),
    h.2 1 3 (by decide) (by decide) (by decide) (by decide) (by decide)⟩

end WidthUtil

end WebrtcCaller
