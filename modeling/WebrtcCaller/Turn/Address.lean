import Mathlib
import WebrtcCaller.Core.Bytes

/-!
# Transport addresses

`ns_turn_ioaddr.c` and `ns_turn_msg_addr.c`: the addresses of peers and relays, their comparison
with and without the port, their hashes, and their encoding in an address attribute, plain or
masked with the magic cookie and the transaction id.
-/

namespace WebrtcCaller.Turn

/-- An `ioa_addr`. Addresses and ports are numbers in network order; `unspec` is zeroed memory. -/
inductive IoaAddr
  | unspec
  | inet (addr : BitVec 32) (port : BitVec 16)
  | inet6 (addr : BitVec 128) (port : BitVec 16)
  deriving DecidableEq, Repr

/-- The address families, `AF_INET` and `AF_INET6`; zeroed memory has neither. -/
inductive Family
  | inet
  | inet6
  deriving DecidableEq, Repr

/-- The family of the address; the unspecified one has none. -/
def IoaAddr.family : IoaAddr → Option Family
  | .unspec => none
  | .inet _ _ => some .inet
  | .inet6 _ _ => some .inet6

/-- `addr_any`: neither a host nor a port is given. -/
def addrAny : IoaAddr → Bool
  | .unspec => true
  | .inet addr port => addr == 0 && port == 0
  | .inet6 addr port => port == 0 && addr == 0

/-- `addr_any_no_port`: no host is given. -/
def addrAnyNoPort : IoaAddr → Bool
  | .unspec => true
  | .inet addr _ => addr == 0
  | .inet6 addr _ => addr == 0

/-- `addr_eq`: two unspecified addresses are not equal. -/
def addrEq : IoaAddr → IoaAddr → Bool
  | .inet a1 p1, .inet a2 p2 => p1 == p2 && a1 == a2
  | .inet6 a1 p1, .inet6 a2 p2 => p1 == p2 && a1 == a2
  | _, _ => false

/-- `addr_eq_no_port`: the hosts are equal. -/
def addrEqNoPort : IoaAddr → IoaAddr → Bool
  | .inet a1 _, .inet a2 _ => a1 == a2
  | .inet6 a1 _, .inet6 a2 _ => a1 == a2
  | _, _ => false

/-- `addr_set_port`. -/
def addrSetPort (port : Nat) : IoaAddr → IoaAddr
  | .unspec => .unspec
  | .inet addr _ => .inet addr (BitVec.ofNat 16 port)
  | .inet6 addr _ => .inet6 addr (BitVec.ofNat 16 port)

/-- `addr_get_port`; the unspecified address has the port 0. -/
def addrGetPort : IoaAddr → Nat
  | .unspec => 0
  | .inet _ port => port.toNat
  | .inet6 _ port => port.toNat

/-- A number of `n` bytes as a little-endian machine reads it out of a network-order field. -/
def fromNetwork (n x : Nat) : Nat := ofBe (be n x).reverse

/-- `hash_int32`. -/
def hashInt32 (a : BitVec 32) : BitVec 32 :=
  let a := a ^^^ (a >>> 4)
  let a := (a ^^^ 0xdeadbeef) + (a <<< 5)
  a ^^^ (a >>> 11)

/-- `hash_int64`. -/
def hashInt64 (a : BitVec 64) : BitVec 64 :=
  let a := a ^^^ (a >>> 4)
  let a := (a ^^^ 0xdeadbeefdeadbeef) + (a <<< 5)
  a ^^^ (a >>> 11)

/-- The two 64-bit words of an IPv6 address. -/
def words (addr : BitVec 128) : BitVec 64 × BitVec 64 :=
  (BitVec.ofNat 64 (fromNetwork 8 (addr.toNat / 2 ^ 64)),
    BitVec.ofNat 64 (fromNetwork 8 addr.toNat))

/-- `addr_hash`. -/
def addrHash : IoaAddr → BitVec 32
  | .unspec => ((hashInt64 0 <<< 3) + hashInt64 0).setWidth 32
  | .inet addr port =>
    hashInt32 (BitVec.ofNat 32 (fromNetwork 4 addr.toNat + fromNetwork 2 port.toNat))
  | .inet6 addr port =>
    ((hashInt64 (words addr).1 <<< 3) +
      hashInt64 ((words addr).2 + BitVec.ofNat 64 (fromNetwork 2 port.toNat))).setWidth 32

/-- `addr_hash_no_port`. -/
def addrHashNoPort : IoaAddr → BitVec 32
  | .unspec => ((hashInt64 0 <<< 3) + hashInt64 0).setWidth 32
  | .inet addr _ => hashInt32 (BitVec.ofNat 32 (fromNetwork 4 addr.toNat))
  | .inet6 addr _ => ((hashInt64 (words addr).1 <<< 3) + hashInt64 (words addr).2).setWidth 32

/-- `addr_eq` is equality, except that zeroed memory equals nothing. -/
theorem addrEq_iff {a b : IoaAddr} : addrEq a b = true ↔ a = b ∧ a ≠ .unspec := by
  cases a <;> cases b <;> simp [addrEq, and_comm]

theorem addrEq_self {a : IoaAddr} (h : a ≠ .unspec) : addrEq a a = true := addrEq_iff.mpr ⟨rfl, h⟩

/-- Two addresses have equal hosts when they agree but for the port. -/
theorem addrEqNoPort_iff {a b : IoaAddr} :
    addrEqNoPort a b = true ↔ addrSetPort 0 a = addrSetPort 0 b ∧ a ≠ .unspec := by
  cases a <;> cases b <;> simp [addrEqNoPort, addrSetPort]

theorem addrEqNoPort_self {a : IoaAddr} (h : a ≠ .unspec) : addrEqNoPort a a = true :=
  addrEqNoPort_iff.mpr ⟨rfl, h⟩

theorem addrEqNoPort_symm {a b : IoaAddr} (h : addrEqNoPort a b = true) :
    addrEqNoPort b a = true := by
  cases a <;> cases b <;> simp_all [addrEqNoPort]

theorem addrEqNoPort_trans {a b c : IoaAddr} (h : addrEqNoPort a b = true)
    (h' : addrEqNoPort b c = true) : addrEqNoPort a c = true := by
  cases a <;> cases b <;> cases c <;> simp_all [addrEqNoPort]

/-- An address is its host and its port. -/
theorem addrEq_of_noPort {a b : IoaAddr} (h : addrEqNoPort a b = true)
    (hp : addrGetPort a = addrGetPort b) : a = b := by
  cases a <;> cases b <;> simp_all [addrEqNoPort, addrGetPort, BitVec.toNat_inj]

/-- Hosts that compare equal hash alike. -/
theorem addrHashNoPort_congr {a b : IoaAddr} (h : addrEqNoPort a b = true) :
    addrHashNoPort a = addrHashNoPort b := by
  cases a <;> cases b <;> simp_all [addrEqNoPort, addrHashNoPort]

/-! ### The address attribute -/

/-- `STUN_MAGIC_COOKIE`. -/
def stunMagicCookie : BitVec 32 := 0x2112A442

/-- The mask of an IPv6 address: the cookie, then the 12 bytes of the transaction id. -/
def mask128 (mc : BitVec 32) (tsxId : BitVec 96) : BitVec 128 := mc ++ tsxId

/-- `stun_addr_encode`: family, port and host, masked if asked for. -/
def stunAddrEncode (xorEd : Bool) (mc : BitVec 32) (tsxId : BitVec 96) : IoaAddr → List UInt8
  | .unspec =>
    let mask := if xorEd then mc else 0
    ([0, 1] : List UInt8) ++ be 2 (mask >>> 16).toNat ++ be 4 mask.toNat
  | .inet addr port =>
    let mask := if xorEd then mc else 0
    ([0, 1] : List UInt8) ++ be 2 (port ^^^ (mask >>> 16).setWidth 16).toNat ++
      be 4 (addr ^^^ mask).toNat
  | .inet6 addr port =>
    let mask := if xorEd then mc else 0
    ([0, 2] : List UInt8) ++ be 2 (port ^^^ (mask >>> 16).setWidth 16).toNat ++
      be 16 (addr ^^^ (if xorEd then mask128 mc tsxId else 0)).toNat

/-- `stun_addr_decode`: only the two families with their lengths are read. -/
def stunAddrDecode (xorEd : Bool) (mc : BitVec 32) (tsxId : BitVec 96) (cfield : List UInt8) :
    Option IoaAddr :=
  if cfield.length < 8 then none
  else if cfield[0]? ≠ some 0 then none
  else
    let mask := if xorEd then mc else 0
    let port := BitVec.ofNat 16 (ofBe ((cfield.drop 2).take 2)) ^^^ (mask >>> 16).setWidth 16
    if cfield[1]? = some 1 then
      if cfield.length ≠ 8 then none
      else some (.inet (BitVec.ofNat 32 (ofBe ((cfield.drop 4).take 4)) ^^^ mask) port)
    else if cfield[1]? = some 2 then
      if cfield.length ≠ 20 then none
      else some (.inet6 (BitVec.ofNat 128 (ofBe ((cfield.drop 4).take 16)) ^^^
        (if xorEd then mask128 mc tsxId else 0)) port)
    else none

/-- The bytes of a bit vector read back are the bit vector. -/
theorem ofNat_ofBe_be {n : Nat} (w : Nat) (h : 2 ^ w = 256 ^ n) (x : BitVec w) :
    BitVec.ofNat w (ofBe (be n x.toNat)) = x := by
  rw [ofBe_be (h ▸ x.isLt), BitVec.ofNat_toNat, BitVec.setWidth_eq]

/-- Masking twice undoes the mask. -/
theorem xor_mask_cancel {w : Nat} (x m : BitVec w) : x ^^^ m ^^^ m = x := by
  rw [BitVec.xor_assoc, BitVec.xor_self, BitVec.xor_zero]

/-- The parts of an address field: family, port, address. -/
theorem field_parts {p a : List UInt8} (f : UInt8) (hp : p.length = 2) :
    (([0, f] ++ p ++ a).drop 2).take 2 = p ∧ ([0, f] ++ p ++ a).drop 4 = a := by
  constructor
  · rw [List.append_assoc, List.drop_append_of_le_length (by simp)]
    simp [hp]
  · apply List.drop_left'
    simp [hp]

/-- Decoding undoes encoding, masked or not. -/
theorem stunAddrDecode_encode {xorEd : Bool} {mc : BitVec 32} {tsxId : BitVec 96} {a : IoaAddr}
    (h : a ≠ .unspec) :
    stunAddrDecode xorEd mc tsxId (stunAddrEncode xorEd mc tsxId a) = some a := by
  cases a with
  | unspec => exact absurd rfl h
  | inet addr port =>
    unfold stunAddrEncode stunAddrDecode
    generalize (if xorEd then mc else 0) = mask
    obtain ⟨hport, haddr⟩ := field_parts (a := be 4 (addr ^^^ mask).toNat) 1
      (length_be 2 (port ^^^ (mask >>> 16).setWidth 16).toNat)
    simp only [hport, haddr]
    rw [ofNat_ofBe_be (n := 2) 16 (by norm_num), xor_mask_cancel, take_be,
      ofNat_ofBe_be (n := 4) 32 (by norm_num), xor_mask_cancel]
    simp
  | inet6 addr port =>
    unfold stunAddrEncode stunAddrDecode
    generalize (if xorEd then mc else 0) = mask
    generalize (if xorEd then mask128 mc tsxId else 0) = mask'
    obtain ⟨hport, haddr⟩ := field_parts (a := be 16 (addr ^^^ mask').toNat) 2
      (length_be 2 (port ^^^ (mask >>> 16).setWidth 16).toNat)
    simp only [hport, haddr]
    rw [ofNat_ofBe_be (n := 2) 16 (by norm_num), xor_mask_cancel, take_be 16,
      ofNat_ofBe_be (n := 16) 128 (by norm_num), xor_mask_cancel]
    simp

end WebrtcCaller.Turn
