import Mathlib
import WebrtcCaller.Core.Bytes

/-!
# Boxes of bytes

Byte strings of one length compare as numbers by their first difference. Comparing them byte by byte
is another order: the strings between two bounds then form a box, which is an interval of numbers
only for special bounds.
-/

namespace WebrtcCaller

/-- Behind the first difference the lower bound has only zeros and the upper one only ones. -/
def aligned : List UInt8 → List UInt8 → Bool
  | x :: lo, y :: hi => if x = y then aligned lo hi else lo.all (· == 0) && hi.all (· == 255)
  | _, _ => true

/-- The first byte weighs as much as there are values of the others. -/
theorem ofBe_cons (x : UInt8) (l : List UInt8) :
    ofBe (x :: l) = x.toNat * 256 ^ l.length + ofBe l := by
  induction l using List.reverseRecOn with
  | nil => simp [ofBe]
  | append_singleton l b ih =>
    rw [← List.cons_append, ofBe_append_singleton, ofBe_append_singleton, ih, List.length_append,
      List.length_singleton, pow_succ]
    ring

/-- The first difference decides. -/
theorem ofBe_cons_le_iff {x y : UInt8} {l m : List UInt8} (hlen : l.length = m.length) :
    ofBe (x :: l) ≤ ofBe (y :: m) ↔ x < y ∨ x = y ∧ ofBe l ≤ ofBe m := by
  have hl := ofBe_lt l
  have hm := ofBe_lt m
  rw [ofBe_cons, ofBe_cons, hlen]
  rw [hlen] at hl
  generalize 256 ^ m.length = B at hl hm
  rw [UInt8.lt_iff_toNat_lt, ← UInt8.toNat_inj]
  obtain hlt | heq | hgt := lt_trichotomy x.toNat y.toNat
  · have hstep : (x.toNat + 1) * B ≤ y.toNat * B := Nat.mul_le_mul_right B hlt
    rw [Nat.succ_mul] at hstep
    exact iff_of_true (by omega) (.inl hlt)
  · rw [heq]
    simp
  · have hstep : (y.toNat + 1) * B ≤ x.toNat * B := Nat.mul_le_mul_right B hgt
    rw [Nat.succ_mul] at hstep
    exact iff_of_false (by omega) (by omega)

/-- What is smaller byte by byte is the smaller number. -/
theorem ofBe_mono {l m : List UInt8} (h : List.Forall₂ (· ≤ ·) l m) : ofBe l ≤ ofBe m := by
  induction h with
  | nil => exact le_rfl
  | cons hxy hrest ih =>
    rw [ofBe_cons_le_iff hrest.length_eq]
    exact (UInt8.lt_or_eq_of_le hxy).imp_right fun heq => ⟨heq, ih⟩

/-- Zeros are below whatever has their length. -/
theorem forall₂_zeros {l m : List UInt8} (h : l.all (· == 0) = true) (hlen : l.length = m.length) :
    List.Forall₂ (· ≤ ·) l m := by
  refine List.forall₂_iff_zip.mpr ⟨hlen, fun {a b} hab => ?_⟩
  have ha := List.all_eq_true.mp h a (List.of_mem_zip hab).1
  rw [beq_iff_eq.mp ha]
  exact UInt8.le_iff_toNat_le.mpr (Nat.zero_le _)

/-- Ones are above whatever has their length. -/
theorem forall₂_ones {l m : List UInt8} (h : m.all (· == 255) = true) (hlen : l.length = m.length) :
    List.Forall₂ (· ≤ ·) l m := by
  refine List.forall₂_iff_zip.mpr ⟨hlen, fun {a b} hab => ?_⟩
  have hb := List.all_eq_true.mp h b (List.of_mem_zip hab).2
  rw [beq_iff_eq.mp hb]
  exact UInt8.le_iff_toNat_le.mpr (Nat.le_of_lt_succ a.toNat_lt)

/-- Only zeros are below zeros. -/
theorem zeros_of_forall₂ {l : List UInt8}
    (h : List.Forall₂ (· ≤ ·) l (List.replicate l.length 0)) : l.all (· == 0) = true := by
  induction l with
  | nil => rfl
  | cons x l ih =>
    obtain ⟨hx, hrest⟩ := List.forall₂_cons.mp h
    rw [List.all_cons, ih hrest, Bool.and_true, beq_iff_eq]
    exact UInt8.le_antisymm hx (UInt8.le_iff_toNat_le.mpr (Nat.zero_le _))

/-- Only ones are above ones. -/
theorem ones_of_forall₂ {l : List UInt8}
    (h : List.Forall₂ (· ≤ ·) (List.replicate l.length 255) l) : l.all (· == 255) = true := by
  induction l with
  | nil => rfl
  | cons x l ih =>
    obtain ⟨hx, hrest⟩ := List.forall₂_cons.mp h
    rw [List.all_cons, ih hrest, Bool.and_true, beq_iff_eq]
    exact UInt8.le_antisymm (UInt8.le_iff_toNat_le.mpr (Nat.le_of_lt_succ x.toNat_lt)) hx

/-- Between aligned bounds the box is the interval. -/
theorem box_eq_interval {lo hi a : List UInt8} (halign : aligned lo hi = true)
    (hlo : lo.length = a.length) (hhi : a.length = hi.length) (hle : ofBe lo ≤ ofBe hi) :
    List.Forall₂ (· ≤ ·) lo a ∧ List.Forall₂ (· ≤ ·) a hi ↔
      ofBe lo ≤ ofBe a ∧ ofBe a ≤ ofBe hi := by
  refine ⟨fun h => ⟨ofBe_mono h.1, ofBe_mono h.2⟩, ?_⟩
  induction lo generalizing hi a with
  | nil =>
    obtain rfl := List.length_eq_zero_iff.mp hlo.symm
    obtain rfl := List.length_eq_zero_iff.mp hhi.symm
    exact fun _ => ⟨.nil, .nil⟩
  | cons x lo ih =>
    obtain ⟨z, a, rfl⟩ := List.exists_cons_of_length_eq_add_one hlo.symm
    obtain ⟨y, hi, rfl⟩ := List.exists_cons_of_length_eq_add_one hhi.symm
    simp only [List.length_cons, Nat.add_right_cancel_iff] at hlo hhi
    rw [ofBe_cons_le_iff hlo, ofBe_cons_le_iff hhi, List.forall₂_cons, List.forall₂_cons]
    rw [ofBe_cons_le_iff (hlo.trans hhi)] at hle
    rw [aligned] at halign
    rintro ⟨hlow, hhigh⟩
    have hxz : x ≤ z := hlow.elim UInt8.le_of_lt fun h => UInt8.le_of_eq h.1
    have hzy : z ≤ y := hhigh.elim UInt8.le_of_lt fun h => UInt8.le_of_eq h.1
    by_cases hxy : x = y
    · subst hxy
      obtain rfl := UInt8.le_antisymm hxz hzy
      rw [if_pos rfl] at halign
      have hrest := ih halign hlo hhi ((hle.resolve_left (UInt8.lt_irrefl _)).2)
        ⟨(hlow.resolve_left (UInt8.lt_irrefl _)).2, (hhigh.resolve_left (UInt8.lt_irrefl _)).2⟩
      exact ⟨⟨hxz, hrest.1⟩, hzy, hrest.2⟩
    · rw [if_neg hxy, Bool.and_eq_true] at halign
      exact ⟨⟨hxz, forall₂_zeros halign.1 hlo⟩, hzy, forall₂_ones halign.2 hhi⟩

/-- Between other bounds there is a number outside the box. -/
theorem exists_outside_box {lo hi : List UInt8} (halign : aligned lo hi = false)
    (hlen : lo.length = hi.length) (hle : ofBe lo ≤ ofBe hi) :
    ∃ a : List UInt8, a.length = lo.length ∧ ofBe lo ≤ ofBe a ∧ ofBe a ≤ ofBe hi ∧
      ¬ (List.Forall₂ (· ≤ ·) lo a ∧ List.Forall₂ (· ≤ ·) a hi) := by
  induction lo generalizing hi with
  | nil => simp [aligned] at halign
  | cons x lo ih =>
    obtain ⟨y, hi, rfl⟩ := List.exists_cons_of_length_eq_add_one hlen.symm
    simp only [List.length_cons, Nat.add_right_cancel_iff] at hlen
    rw [ofBe_cons_le_iff hlen] at hle
    rw [aligned] at halign
    by_cases hxy : x = y
    · subst hxy
      rw [if_pos rfl] at halign
      obtain ⟨a, ha, hlow, hhigh, hout⟩ := ih halign hlen (hle.resolve_left (UInt8.lt_irrefl _)).2
      refine ⟨x :: a, by rw [List.length_cons, ha, List.length_cons], ?_, ?_, fun hbox => hout ?_⟩
      · exact (ofBe_cons_le_iff ha.symm).mpr (.inr ⟨rfl, hlow⟩)
      · exact (ofBe_cons_le_iff (ha.trans hlen)).mpr (.inr ⟨rfl, hhigh⟩)
      · exact ⟨(List.forall₂_cons.mp hbox.1).2, (List.forall₂_cons.mp hbox.2).2⟩
    · have hlt : x < y := hle.resolve_right fun h => hxy h.1
      rw [if_neg hxy, Bool.and_eq_false_iff] at halign
      obtain hzeros | hones := halign
      · refine ⟨y :: List.replicate lo.length 0, by simp, ?_, ?_, fun hbox => ?_⟩
        · exact (ofBe_cons_le_iff (by simp)).mpr (.inl hlt)
        · exact (ofBe_cons_le_iff (by simp [hlen])).mpr
            (.inr ⟨rfl, ofBe_mono (forall₂_zeros (by simp) (by simp [hlen]))⟩)
        · rw [zeros_of_forall₂ (List.forall₂_cons.mp hbox.1).2] at hzeros
          cases hzeros
      · refine ⟨x :: List.replicate hi.length 255, by simp [hlen], ?_, ?_, fun hbox => ?_⟩
        · exact (ofBe_cons_le_iff (by simp [hlen])).mpr
            (.inr ⟨rfl, ofBe_mono (forall₂_ones (by simp) (by simp [hlen]))⟩)
        · exact (ofBe_cons_le_iff (by simp)).mpr (.inl hlt)
        · rw [ones_of_forall₂ (List.forall₂_cons.mp hbox.2).2] at hones
          cases hones

end WebrtcCaller
