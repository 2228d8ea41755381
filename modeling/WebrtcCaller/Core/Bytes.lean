import Mathlib

/-!
# Numbers in network order

A number written with its most significant byte first, and read back.
-/

namespace WebrtcCaller

/-- The last `n` bytes of a number, most significant first. -/
def be : Nat → Nat → List UInt8
  | 0, _ => []
  | n + 1, x => be n (x / 256) ++ [UInt8.ofNat x]

/-- The number some bytes stand for. -/
def ofBe (l : List UInt8) : Nat := l.foldl (fun acc b => acc * 256 + b.toNat) 0

@[simp] theorem length_be (n x : Nat) : (be n x).length = n := by
  induction n generalizing x with
  | zero => rfl
  | succ n ih => rw [be, List.length_append, ih, List.length_singleton]

/-- Cutting at the width cuts nothing. -/
theorem take_be (n x : Nat) : (be n x).take n = be n x :=
  List.take_of_length_le (length_be n x).le

@[simp] theorem ofBe_nil : ofBe [] = 0 := rfl

theorem ofBe_append_singleton (l : List UInt8) (b : UInt8) :
    ofBe (l ++ [b]) = ofBe l * 256 + b.toNat := by
  rw [ofBe, List.foldl_append]
  rfl

/-- Reading gives back what was written, as far as the bytes reach. -/
theorem ofBe_be_mod (n x : Nat) : ofBe (be n x) = x % 256 ^ n := by
  induction n generalizing x with
  | zero => rw [be, ofBe_nil, pow_zero, Nat.mod_one]
  | succ n ih =>
    have hsplit : x % 256 ^ (n + 1) = x % 256 + 256 * (x / 256 % 256 ^ n) := by
      rw [pow_succ', Nat.mod_mul]
    rw [be, ofBe_append_singleton, ih, UInt8.toNat_ofNat', hsplit]
    omega

/-- A number that fits its bytes is read back from them. -/
theorem ofBe_be {n x : Nat} (h : x < 256 ^ n) : ofBe (be n x) = x := by
  rw [ofBe_be_mod, Nat.mod_eq_of_lt h]

/-- As many bytes, as large a number at most. -/
theorem ofBe_lt (l : List UInt8) : ofBe l < 256 ^ l.length := by
  induction l using List.reverseRecOn with
  | nil => simp
  | append_singleton l b ih =>
    have hb := b.toNat_lt
    rw [ofBe_append_singleton, List.length_append, List.length_singleton, pow_succ]
    omega

/-- Writing what was read gives back the bytes. -/
theorem be_ofBe (l : List UInt8) : be l.length (ofBe l) = l := by
  induction l using List.reverseRecOn with
  | nil => rfl
  | append_singleton l b ih =>
    have hb := b.toNat_lt
    rw [List.length_append, List.length_singleton, be, ofBe_append_singleton,
      show (ofBe l * 256 + b.toNat) / 256 = ofBe l by omega, ih]
    congr 2
    apply UInt8.toNat_inj.mp
    rw [UInt8.toNat_ofNat']
    omega

/-! ### Numbers in a buffer -/

/-- The number in the `n` bytes at an offset. -/
def numAt (n : Nat) (buf : List UInt8) (off : Nat) : Nat := ofBe ((buf.drop off).take n)

/-- Bytes written over those at an offset. -/
def putAt (off : Nat) (bytes buf : List UInt8) : List UInt8 :=
  buf.take off ++ bytes ++ buf.drop (off + bytes.length)

theorem numAt_lt {n : Nat} (buf : List UInt8) (off : Nat) : numAt n buf off < 256 ^ n :=
  (ofBe_lt _).trans_le (Nat.pow_le_pow_right (by norm_num) (List.length_take_le _ _))

/-- A number is read where it stands, whatever stands around it. -/
theorem numAt_append {n off x : Nat} {l r : List UInt8} (h : l.length = off) (hx : x < 256 ^ n) :
    numAt n (l ++ (be n x ++ r)) off = x := by
  rw [numAt, List.drop_left' h, List.take_left' (length_be n x), ofBe_be hx]

/-- Writing over the middle of three pieces leaves the outer two. -/
theorem putAt_append {off : Nat} {bytes old l r : List UInt8} (h : l.length = off)
    (hold : old.length = bytes.length) : putAt off bytes (l ++ (old ++ r)) = l ++ (bytes ++ r) := by
  rw [putAt, List.take_left' h, ← List.append_assoc l old r, List.drop_left', List.append_assoc]
  rw [List.length_append, h, hold]

end WebrtcCaller
