import Mathlib

/-!
# Slot tables

A table of buckets, each a row of slots that are taken first fit and grow at the end. A slot is
named by its bucket and its index, as a pointer to it would; what a table holds is what it has at
each such place.
-/

namespace WebrtcCaller

/-- Buckets of slots; `none` is a slot that is not in use. -/
structure Slots (α : Type*) where
  bucket : Nat → List (Option α)

/-- Where a slot is: bucket and index. -/
abbrev Place := Nat × Nat

namespace Slots

variable {α : Type*}

/-- A table all of whose buckets start with `n` unused slots. -/
def empty (n : Nat) : Slots α := ⟨fun _ => List.replicate n none⟩

/-- What stands at a place. -/
def get (t : Slots α) (r : Place) : Option α := ((t.bucket r.1)[r.2]?).join

/-- The first slot of a bucket whose content passes the test. -/
def find (t : Slots α) (b : Nat) (p : α → Bool) : Option Place :=
  ((t.bucket b).findIdx? fun s => s.any p).map (b, ·)

/-- The first unused slot of a bucket, or the place behind its last one. -/
def vacant (t : Slots α) (b : Nat) : Place := (b, (t.bucket b).findIdx (·.isNone))

/-- Write a slot, appending it when it is the one behind the last. -/
def write (t : Slots α) (r : Place) (x : Option α) : Slots α :=
  ⟨Function.update t.bucket r.1
    (if r.2 < (t.bucket r.1).length then (t.bucket r.1).set r.2 x else t.bucket r.1 ++ [x])⟩

variable {t : Slots α} {r r' : Place} {x : Option α} {b : Nat} {p : α → Bool}

@[simp] theorem get_empty (n : Nat) (r : Place) : (empty n : Slots α).get r = none := by
  unfold get empty
  rw [List.getElem?_replicate]
  split_ifs <;> rfl

@[simp] theorem vacant_bucket (t : Slots α) (b : Nat) : (t.vacant b).1 = b := rfl

/-- The place is one of the bucket's slots, or the next one. -/
def Fits (t : Slots α) (r : Place) : Prop := r.2 ≤ (t.bucket r.1).length

/-- The place found for a bucket can be written. -/
theorem fits_vacant (t : Slots α) (b : Nat) : t.Fits (t.vacant b) := List.findIdx_le_length

/-- Only a place in its bucket holds something. -/
theorem lt_of_get {a : α} (h : t.get r = some a) : r.2 < (t.bucket r.1).length := by
  by_contra hn
  unfold get at h
  rw [List.getElem?_eq_none (Nat.le_of_not_lt hn)] at h
  cases h

/-- A place that holds something can be written. -/
theorem fits_of_get {a : α} (h : t.get r = some a) : t.Fits r := (lt_of_get h).le

/-- A vacant place holds nothing. -/
@[simp] theorem get_vacant (t : Slots α) (b : Nat) : t.get (t.vacant b) = none := by
  unfold get vacant
  by_cases h : (t.bucket b).findIdx (·.isNone) < (t.bucket b).length
  · have hnone := List.findIdx_getElem (w := h)
    rw [List.getElem?_eq_getElem h, Option.join_some]
    exact Option.isNone_iff_eq_none.mp hnone
  · rw [List.getElem?_eq_none (Nat.le_of_not_lt h)]
    rfl

theorem get_write_self (h : t.Fits r) : (t.write r x).get r = x := by
  unfold Fits at h
  unfold get write
  simp only
  rw [Function.update_self]
  split_ifs with hlt
  · rw [List.getElem?_set_self hlt]
    rfl
  · have he : r.2 = (t.bucket r.1).length := by omega
    rw [he, List.getElem?_concat_length]
    rfl

/-- The other places are left alone. -/
theorem get_write_ne (h : t.Fits r) (hne : r' ≠ r) : (t.write r x).get r' = t.get r' := by
  unfold Fits at h
  unfold get write
  simp only
  by_cases hb : r'.1 = r.1
  · have hi : r'.2 ≠ r.2 := fun he => hne (Prod.ext hb he)
    rw [hb, Function.update_self]
    split_ifs with hlt
    · rw [List.getElem?_set_ne (Ne.symm hi)]
    · rw [List.getElem?_append]
      split_ifs with hlt'
      · rfl
      · rw [List.getElem?_eq_none (by simp; omega), List.getElem?_eq_none (by omega)]
  · rw [Function.update_of_ne hb]

/-- Reading after a write. -/
theorem get_write (h : t.Fits r) : (t.write r x).get r' = if r' = r then x else t.get r' := by
  split_ifs with he
  · rw [he, get_write_self h]
  · exact get_write_ne h he

/-- What a search finds stands in the bucket and passes the test. -/
theorem find_some (h : t.find b p = some r) : r.1 = b ∧ ∃ a, t.get r = some a ∧ p a = true := by
  unfold find at h
  rw [Option.map_eq_some_iff] at h
  obtain ⟨i, hi, rfl⟩ := h
  refine ⟨rfl, ?_⟩
  obtain ⟨hlt, htest, -⟩ := List.findIdx?_eq_some_iff_getElem.mp hi
  unfold get
  rw [List.getElem?_eq_getElem hlt, Option.join_some]
  rw [Option.any_eq_true] at htest
  obtain ⟨a, ha, hp⟩ := htest
  exact ⟨a, ha, hp⟩

/-- A search that finds nothing has passed over the whole bucket. -/
theorem find_none {a : α} (h : t.find r.1 p = none) (ha : t.get r = some a) : p a = false := by
  unfold find at h
  rw [Option.map_eq_none_iff, List.findIdx?_eq_none_iff] at h
  have hlt := lt_of_get ha
  unfold get at ha
  rw [List.getElem?_eq_getElem hlt, Option.join_some] at ha
  have := h _ (List.getElem_mem hlt)
  rw [ha] at this
  exact this

/-- The only slot of its bucket that passes is the one found. -/
theorem find_eq_of_unique {a : α} (ha : t.get r = some a) (hp : p a = true)
    (hu : ∀ r' a', r'.1 = r.1 → t.get r' = some a' → p a' = true → r' = r) :
    t.find r.1 p = some r := by
  cases h : t.find r.1 p with
  | none =>
    rw [find_none h ha] at hp
    cases hp
  | some r' =>
    obtain ⟨hb, a', ha', hp'⟩ := find_some h
    rw [hu r' a' hb ha' hp']

/-- Where no entry of the bucket passes the test, none is found. -/
theorem find_eq_none (h : ∀ r a, r.1 = b → t.get r = some a → p a = false) :
    t.find b p = none := by
  cases he : t.find b p with
  | none => rfl
  | some r =>
    obtain ⟨hb, a, ha, hp⟩ := find_some he
    rw [h r a hb ha] at hp
    cases hp

/-- Change what stands at a place, if anything does. -/
def modify (t : Slots α) (r : Place) (f : α → α) : Slots α :=
  match t.get r with
  | some a => t.write r (some (f a))
  | none => t

/-- Empty a place. -/
def erase (t : Slots α) (r : Place) : Slots α :=
  match t.get r with
  | some _ => t.write r none
  | none => t

/-- A modification is seen at its place and nowhere else. -/
theorem get_modify (t : Slots α) (r r' : Place) (f : α → α) :
    (t.modify r f).get r' = if r' = r then (t.get r).map f else t.get r' := by
  unfold modify
  cases h : t.get r with
  | some a => rw [get_write (fits_of_get h), Option.map_some]
  | none =>
    split_ifs with he
    · rw [he, h]
      rfl
    · rfl

/-- An erased place is empty, and the others are left alone. -/
theorem get_erase (t : Slots α) (r r' : Place) :
    (t.erase r).get r' = if r' = r then none else t.get r' := by
  unfold erase
  cases h : t.get r with
  | some a => rw [get_write (fits_of_get h)]
  | none =>
    split_ifs with he
    · rw [he, h]
    · rfl

/-- Erasing a list of places empties these and no other. -/
theorem get_foldl_erase (l : List Place) (t : Slots α) (r : Place) :
    (l.foldl erase t).get r = if r ∈ l then none else t.get r := by
  induction l generalizing t with
  | nil => simp
  | cons r' l ih =>
    rw [List.foldl_cons, ih, get_erase]
    by_cases hl : r ∈ l
    · simp [hl]
    · by_cases he : r = r' <;> simp [hl, he]

end Slots

end WebrtcCaller
