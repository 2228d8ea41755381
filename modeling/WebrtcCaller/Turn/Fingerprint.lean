import Mathlib
import WebrtcCaller.Turn.Message

/-!
# Fingerprints

The last attribute of a message may be a checksum of everything before it. A message that was given
its fingerprint passes the full check, and one that was damaged in a byte does not.
-/

namespace WebrtcCaller.Turn

/-! ### The checksum -/

/-- `crctable`. -/
def crctable : List (BitVec 32) := [
  0x00000000, 0x77073096, 0xee0e612c, 0x990951ba, 0x076dc419, 0x706af48f, 0xe963a535, 0x9e6495a3,
  0x0edb8832, 0x79dcb8a4, 0xe0d5e91e, 0x97d2d988, 0x09b64c2b, 0x7eb17cbd, 0xe7b82d07, 0x90bf1d91,
  0x1db71064, 0x6ab020f2, 0xf3b97148, 0x84be41de, 0x1adad47d, 0x6ddde4eb, 0xf4d4b551, 0x83d385c7,
  0x136c9856, 0x646ba8c0, 0xfd62f97a, 0x8a65c9ec, 0x14015c4f, 0x63066cd9, 0xfa0f3d63, 0x8d080df5,
  0x3b6e20c8, 0x4c69105e, 0xd56041e4, 0xa2677172, 0x3c03e4d1, 0x4b04d447, 0xd20d85fd, 0xa50ab56b,
  0x35b5a8fa, 0x42b2986c, 0xdbbbc9d6, 0xacbcf940, 0x32d86ce3, 0x45df5c75, 0xdcd60dcf, 0xabd13d59,
  0x26d930ac, 0x51de003a, 0xc8d75180, 0xbfd06116, 0x21b4f4b5, 0x56b3c423, 0xcfba9599, 0xb8bda50f,
  0x2802b89e, 0x5f058808, 0xc60cd9b2, 0xb10be924, 0x2f6f7c87, 0x58684c11, 0xc1611dab, 0xb6662d3d,
  0x76dc4190, 0x01db7106, 0x98d220bc, 0xefd5102a, 0x71b18589, 0x06b6b51f, 0x9fbfe4a5, 0xe8b8d433,
  0x7807c9a2, 0x0f00f934, 0x9609a88e, 0xe10e9818, 0x7f6a0dbb, 0x086d3d2d, 0x91646c97, 0xe6635c01,
  0x6b6b51f4, 0x1c6c6162, 0x856530d8, 0xf262004e, 0x6c0695ed, 0x1b01a57b, 0x8208f4c1, 0xf50fc457,
  0x65b0d9c6, 0x12b7e950, 0x8bbeb8ea, 0xfcb9887c, 0x62dd1ddf, 0x15da2d49, 0x8cd37cf3, 0xfbd44c65,
  0x4db26158, 0x3ab551ce, 0xa3bc0074, 0xd4bb30e2, 0x4adfa541, 0x3dd895d7, 0xa4d1c46d, 0xd3d6f4fb,
  0x4369e96a, 0x346ed9fc, 0xad678846, 0xda60b8d0, 0x44042d73, 0x33031de5, 0xaa0a4c5f, 0xdd0d7cc9,
  0x5005713c, 0x270241aa, 0xbe0b1010, 0xc90c2086, 0x5768b525, 0x206f85b3, 0xb966d409, 0xce61e49f,
  0x5edef90e, 0x29d9c998, 0xb0d09822, 0xc7d7a8b4, 0x59b33d17, 0x2eb40d81, 0xb7bd5c3b, 0xc0ba6cad,
  0xedb88320, 0x9abfb3b6, 0x03b6e20c, 0x74b1d29a, 0xead54739, 0x9dd277af, 0x04db2615, 0x73dc1683,
  0xe3630b12, 0x94643b84, 0x0d6d6a3e, 0x7a6a5aa8, 0xe40ecf0b, 0x9309ff9d, 0x0a00ae27, 0x7d079eb1,
  0xf00f9344, 0x8708a3d2, 0x1e01f268, 0x6906c2fe, 0xf762575d, 0x806567cb, 0x196c3671, 0x6e6b06e7,
  0xfed41b76, 0x89d32be0, 0x10da7a5a, 0x67dd4acc, 0xf9b9df6f, 0x8ebeeff9, 0x17b7be43, 0x60b08ed5,
  0xd6d6a3e8, 0xa1d1937e, 0x38d8c2c4, 0x4fdff252, 0xd1bb67f1, 0xa6bc5767, 0x3fb506dd, 0x48b2364b,
  0xd80d2bda, 0xaf0a1b4c, 0x36034af6, 0x41047a60, 0xdf60efc3, 0xa867df55, 0x316e8eef, 0x4669be79,
  0xcb61b38c, 0xbc66831a, 0x256fd2a0, 0x5268e236, 0xcc0c7795, 0xbb0b4703, 0x220216b9, 0x5505262f,
  0xc5ba3bbe, 0xb2bd0b28, 0x2bb45a92, 0x5cb36a04, 0xc2d7ffa7, 0xb5d0cf31, 0x2cd99e8b, 0x5bdeae1d,
  0x9b64c2b0, 0xec63f226, 0x756aa39c, 0x026d930a, 0x9c0906a9, 0xeb0e363f, 0x72076785, 0x05005713,
  0x95bf4a82, 0xe2b87a14, 0x7bb12bae, 0x0cb61b38, 0x92d28e9b, 0xe5d5be0d, 0x7cdcefb7, 0x0bdbdf21,
  0x86d3d2d4, 0xf1d4e242, 0x68ddb3f8, 0x1fda836e, 0x81be16cd, 0xf6b9265b, 0x6fb077e1, 0x18b74777,
  0x88085ae6, 0xff0f6a70, 0x66063bca, 0x11010b5c, 0x8f659eff, 0xf862ae69, 0x616bffd3, 0x166ccf45,
  0xa00ae278, 0xd70dd2ee, 0x4e048354, 0x3903b3c2, 0xa7672661, 0xd06016f7, 0x4969474d, 0x3e6e77db,
  0xaed16a4a, 0xd9d65adc, 0x40df0b66, 0x37d83bf0, 0xa9bcae53, 0xdebb9ec5, 0x47b2cf7f, 0x30b5ffe9,
  0xbdbdf21c, 0xcabac28a, 0x53b39330, 0x24b4a3a6, 0xbad03605, 0xcdd70693, 0x54de5729, 0x23d967bf,
  0xb3667a2e, 0xc4614ab8, 0x5d681b02, 0x2a6f2b94, 0xb40bbe37, 0xc30c8ea1, 0x5a05df1b, 0x2d02ef8d]

/-- `UPDATE_CRC`. -/
def updateCrc (crc : BitVec 32) (c : UInt8) : BitVec 32 :=
  crctable.getD (crc.setWidth 8 ^^^ c.toBitVec).toNat 0 ^^^ (crc >>> 8)

/-- `ns_crc32`. -/
def nsCrc32 (buffer : List UInt8) : BitVec 32 := ~~~ buffer.foldl updateCrc 0xFFFFFFFF

/-- Numbers none of which comes twice, or is among the bits already seen. -/
def freshBits (seen : Nat) : List Nat → Bool
  | [] => true
  | x :: xs => !seen.testBit x && freshBits (seen ||| 2 ^ x) xs

/-- A list is free of repetitions when each element sets a bit that is new. -/
theorem nodup_of_freshBits {seen : Nat} {l : List Nat} (h : freshBits seen l = true) :
    l.Nodup ∧ ∀ x ∈ l, seen.testBit x = false := by
  induction l generalizing seen with
  | nil => exact ⟨List.nodup_nil, fun x hx => absurd hx List.not_mem_nil⟩
  | cons x xs ih =>
    rw [freshBits, Bool.and_eq_true, Bool.not_eq_true'] at h
    obtain ⟨hnodup, hseen⟩ := ih h.2
    have hold : ∀ y ∈ xs, seen.testBit y = false ∧ y ≠ x := by
      intro y hy
      have := hseen y hy
      rw [Nat.testBit_or, Bool.or_eq_false_iff, Nat.testBit_two_pow,
        decide_eq_false_iff_not] at this
      exact ⟨this.1, fun he => this.2 he.symm⟩
    refine ⟨List.nodup_cons.mpr ⟨fun hx => (hold x hx).2 rfl, hnodup⟩, fun y hy => ?_⟩
    obtain rfl | hy := List.mem_cons.mp hy
    · exact h.1
    · exact (hold y hy).1

/-- No two words of the table have the same top byte. -/
theorem crctable_tops : (crctable.map fun w => w.toNat / 2 ^ 24).Nodup := by
  have hfresh : freshBits 0 (crctable.map fun w => w.toNat / 2 ^ 24) = true := by decide +kernel
  exact (nodup_of_freshBits hfresh).1

theorem length_crctable : crctable.length = 256 := by
  decide +kernel

/-- Under an injection the entries of a table are known from their images. -/
theorem getD_inj_of_nodup {α β : Type*} {l : List α} {f : α → β} (h : (l.map f).Nodup) {i j : Nat}
    (hi : i < l.length) (hj : j < l.length) (d : α) (he : f (l.getD i d) = f (l.getD j d)) :
    i = j := by
  rw [List.getD_eq_getElem _ _ hi, List.getD_eq_getElem _ _ hj] at he
  have hget : (l.map f).get ⟨i, by simpa using hi⟩ = (l.map f).get ⟨j, by simpa using hj⟩ := by
    simpa using he
  exact Fin.mk.inj_iff.mp (h.get_inj_iff.mp hget)

/-- The top byte of an updated checksum is that of the word of the table. -/
theorem toNat_updateCrc_div (crc : BitVec 32) (c : UInt8) : (updateCrc crc c).toNat / 2 ^ 24 =
    (crctable.getD (crc.setWidth 8 ^^^ c.toBitVec).toNat 0).toNat / 2 ^ 24 := by
  have hshift : crc.toNat >>> 8 >>> 24 = 0 := by
    rw [← Nat.shiftRight_add, Nat.shiftRight_eq_div_pow]
    exact Nat.div_eq_of_lt crc.isLt
  rw [updateCrc, BitVec.toNat_xor, BitVec.toNat_ushiftRight, ← Nat.shiftRight_eq_div_pow,
    ← Nat.shiftRight_eq_div_pow, Nat.shiftRight_xor_distrib, hshift, Nat.xor_zero]

/-- An update tells apart the words it looks up, and then all the rest. -/
theorem updateCrc_inj {crc crc' : BitVec 32} {c c' : UInt8}
    (h : updateCrc crc c = updateCrc crc' c') :
    crc.setWidth 8 ^^^ c.toBitVec = crc'.setWidth 8 ^^^ c'.toBitVec ∧ crc >>> 8 = crc' >>> 8 := by
  have htop := congrArg (fun x : BitVec 32 => x.toNat / 2 ^ 24) h
  simp only [toNat_updateCrc_div] at htop
  have hindex := getD_inj_of_nodup crctable_tops (length_crctable ▸ BitVec.isLt _)
    (length_crctable ▸ BitVec.isLt _) 0 htop
  refine ⟨BitVec.eq_of_toNat_eq hindex, ?_⟩
  rw [updateCrc, updateCrc, hindex] at h
  exact (BitVec.xor_right_inj _).mp h

/-- The state of the checksum before a byte is determined by the state after it. -/
theorem updateCrc_left_inj {crc crc' : BitVec 32} {c : UInt8}
    (h : updateCrc crc c = updateCrc crc' c) : crc = crc' := by
  obtain ⟨hlow, hhigh⟩ := updateCrc_inj h
  have hlow := (BitVec.xor_left_inj _).mp hlow
  apply BitVec.eq_of_getLsbD_eq
  intro i hi
  by_cases h8 : i < 8
  · have := congrArg (fun x : BitVec 8 => x.getLsbD i) hlow
    simpa [h8] using this
  · have := congrArg (fun x : BitVec 32 => x.getLsbD (i - 8)) hhigh
    simpa [Nat.add_sub_cancel' (Nat.not_lt.mp h8)] using this

/-- So is the byte. -/
theorem updateCrc_right_inj {crc : BitVec 32} {c c' : UInt8}
    (h : updateCrc crc c = updateCrc crc c') : c = c' := by
  obtain ⟨hlow, -⟩ := updateCrc_inj h
  exact UInt8.toBitVec_inj.mp ((BitVec.xor_right_inj _).mp hlow)

/-- The rest of a message does not hide a difference in what was before it. -/
theorem foldl_updateCrc_inj {crc crc' : BitVec 32} (buffer : List UInt8)
    (h : buffer.foldl updateCrc crc = buffer.foldl updateCrc crc') : crc = crc' := by
  induction buffer generalizing crc crc' with
  | nil => exact h
  | cons c buffer ih => exact updateCrc_left_inj (ih h)

/-- Two buffers that differ in one byte have different checksums. -/
theorem nsCrc32_ne {l r : List UInt8} {c c' : UInt8} (h : c ≠ c') :
    nsCrc32 (l ++ c :: r) ≠ nsCrc32 (l ++ c' :: r) := by
  intro heq
  rw [nsCrc32, nsCrc32, BitVec.not_inj, List.foldl_append, List.foldl_append] at heq
  exact h (updateCrc_right_inj (foldl_updateCrc_inj r heq))

/-! ### The attribute -/

/-- `STUN_ATTRIBUTE_FINGERPRINT`. -/
def stunAttributeFingerprint : BitVec 16 := 0x8028

/-- `FINGERPRINT_XOR`. -/
def fingerprintXor : BitVec 32 := 0x5354554e

/-- The value of the fingerprint of some bytes. -/
def fingerprintOf (buf : List UInt8) : List UInt8 := be 4 (nsCrc32 buf ^^^ fingerprintXor).toNat

/-- The mask hides nothing. -/
theorem fingerprintOf_inj {l r : List UInt8} (h : fingerprintOf l = fingerprintOf r) :
    nsCrc32 l = nsCrc32 r := by
  have hread := congrArg (fun b => BitVec.ofNat 32 (ofBe b)) h
  simp only [fingerprintOf] at hread
  rw [ofNat_ofBe_be (n := 4) 32 (by norm_num), ofNat_ofBe_be (n := 4) 32 (by norm_num)] at hread
  exact (BitVec.xor_left_inj _).mp hread

/-- Another byte in one place gives another fingerprint. -/
theorem fingerprintOf_set_ne {l : List UInt8} {i : Nat} {c : UInt8} (hi : i < l.length)
    (hc : l[i]? ≠ some c) : fingerprintOf l ≠ fingerprintOf (l.set i c) := by
  intro h
  have hcrc := fingerprintOf_inj h
  rw [List.set_eq_take_append_cons_drop, if_pos hi] at hcrc
  nth_rewrite 1 [← List.take_append_drop i l, List.drop_eq_getElem_cons hi] at hcrc
  refine nsCrc32_ne ?_ hcrc
  rintro rfl
  exact hc (List.getElem?_eq_getElem hi)

/-- `stun_attr_add_fingerprint_str`: the sum is over the message with the attribute counted in. -/
def stunAttrAddFingerprint (buf : List UInt8) : Option (List UInt8) :=
  (stunAttrAdd buf stunAttributeFingerprint.toNat [0, 0, 0, 0]).map fun buf =>
    putAt (buf.length - 4) (fingerprintOf (buf.take (buf.length - 8))) buf

/-- The full check, with what it notes about the presence of a fingerprint. -/
def stunIsCommandMessageFullCheck (buf : List UInt8) (mustCheckFingerprint : Bool) :
    Bool × Option Bool :=
  if !stunIsCommandMessage buf then (false, none)
  else
    match stunAttrGetFirstByType buf stunAttributeFingerprint.toNat with
    | none => (stunGetMethod buf == 0x0001 || !mustCheckFingerprint, some false)
    | some sar =>
      if stunAttrGetLen buf sar ≠ 4 then (false, none)
      else
        match stunAttrGetValue buf sar with
        | none => (!mustCheckFingerprint, none)
        | some fingerprint =>
          let ret := fingerprint == fingerprintOf (buf.take sar)
          (ret, if ret then some true else none)

/-- What stands before the last attribute of a message. -/
def Message.before (m : Message) (a : Attribute) : List UInt8 :=
  be 2 m.type.toNat ++ (be 2 (m.body.length + a.encode.length) ++ (be 4 m.cookie.toNat ++
    (be 12 m.tid.toNat ++ m.body)))

theorem Message.length_before (m : Message) (a : Attribute) :
    (m.before a).length = stunHeaderLength + m.body.length := by
  simp [before, stunHeaderLength]
  omega

/-- The attribute is added behind what the sum is over. -/
theorem Message.encode_add (m : Message) (a : Attribute) :
    (m.add a).encode = m.before a ++ a.encode := by
  simp [encode, before, body_add]
  rfl

/-- The fingerprint is the last attribute, and covers everything before it. -/
theorem stunAttrAddFingerprint_encode {m : Message} (h : m.Fits) {buf : List UInt8}
    (hadd : stunAttrAddFingerprint m.encode = some buf) :
    ∃ fp : Attribute, fp.type = stunAttributeFingerprint ∧ fp.value.length = 4 ∧
      (m.add fp).Fits ∧ buf = (m.add fp).encode ∧ fp.value = fingerprintOf (m.before fp) := by
  -- the attribute is added with zeros for its value, which are overwritten
  have hplace := Message.stunAttrAdd_encode h ⟨stunAttributeFingerprint, [0, 0, 0, 0]⟩
  rw [stunAttrAddFingerprint, hplace, Option.map_eq_some_iff] at hadd
  obtain ⟨buf₀, hfit, rfl⟩ := hadd
  rw [Option.ite_none_right_eq_some] at hfit
  obtain ⟨hfit, hbuf₀⟩ := hfit
  obtain rfl := Option.some.inj hbuf₀
  generalize hz : (⟨stunAttributeFingerprint, [0, 0, 0, 0]⟩ : Attribute) = zero at hfit
  have hlen : (m.add zero).encode.length = (m.before zero).length + 8 := by
    rw [Message.encode_add, List.length_append, Attribute.length_encode, ← hz]
    rfl
  have htake : (m.add zero).encode.take ((m.add zero).encode.length - 8) = m.before zero := by
    rw [hlen, Nat.add_sub_cancel, Message.encode_add, List.take_left' rfl]
  have hvalue : (fingerprintOf (m.before zero)).length = 4 := length_be _ _
  generalize hfp : (⟨stunAttributeFingerprint, fingerprintOf (m.before zero)⟩ : Attribute) = fp
  have hfour : fp.value.length = 4 := by rw [← hfp, hvalue]
  have hsame : m.before fp = m.before zero := by
    simp [Message.before, hfour, ← hz]
  have hover : putAt ((m.add zero).encode.length - 4) (fingerprintOf (m.before zero))
      (m.add zero).encode = (m.add fp).encode := by
    have hzero : (m.add zero).encode = (m.before zero ++ (be 2 stunAttributeFingerprint.toNat ++
        be 2 4)) ++ ([0, 0, 0, 0] ++ []) := by
      rw [Message.encode_add, ← hz, List.append_assoc]
      rfl
    have hend : (m.before zero ++ (be 2 stunAttributeFingerprint.toNat ++ be 2 4)).length =
        (m.add zero).encode.length - 4 := by
      rw [hlen, List.length_append]
      rfl
    rw [← hend, hzero, putAt_append rfl (by rw [hvalue]; rfl), Message.encode_add, hsame, ← hfp]
    simp [Attribute.encode, hvalue, round4]
  refine ⟨fp, by rw [← hfp], hfour, ?_, ?_, ?_⟩
  · rw [Message.Fits, Message.encode_add, List.length_append, hsame, Attribute.length_encode, hfour]
    rw [hlen] at hfit
    exact hfit
  · rw [htake, hover]
  · rw [hsame, ← hfp]

/-- What the full check comes to where a fingerprint of four bytes is found. -/
theorem fullCheck_of_found {buf : List UInt8} {sar : Nat} (hcmd : stunIsCommandMessage buf = true)
    (hsar : stunAttrGetFirstByType buf stunAttributeFingerprint.toNat = some sar)
    (hlen : stunAttrGetLen buf sar = 4) (must : Bool) :
    stunIsCommandMessageFullCheck buf must =
      ((readAttr buf sar).value == fingerprintOf (buf.take sar),
        if (readAttr buf sar).value == fingerprintOf (buf.take sar) then some true else none) := by
  have hvalue : stunAttrGetValue buf sar = some (readAttr buf sar).value := by
    rw [stunAttrGetValue, readAttr, hlen]
    rfl
  simp only [stunIsCommandMessageFullCheck, hcmd, hsar, hlen, hvalue, Bool.not_true,
    Bool.false_eq_true, if_false, ne_eq, not_true_eq_false]

/-- A message with its fingerprint, as the full check sees it. -/
theorem fingerprinted {m : Message} (h : m.Fits) (htype : m.type.toNat < 0x4000)
    (hcookie : m.cookie = stunMagicCookie)
    (hnone : ∀ a ∈ m.attrs, a.type ≠ stunAttributeFingerprint) {buf : List UInt8}
    (hadd : stunAttrAddFingerprint m.encode = some buf) :
    stunIsCommandMessage buf = true ∧
    stunAttrGetFirstByType buf stunAttributeFingerprint.toNat =
      some (stunHeaderLength + m.body.length) ∧
    stunAttrGetLen buf (stunHeaderLength + m.body.length) = 4 ∧
    (readAttr buf (stunHeaderLength + m.body.length)).value =
      fingerprintOf (buf.take (stunHeaderLength + m.body.length)) := by
  obtain ⟨fp, hfp, hfour, hfits, rfl, hvalue⟩ := stunAttrAddFingerprint_encode h hadd
  have hlast : (m.add fp).attrs = m.attrs ++ fp :: [] := rfl
  have hfirst := Message.stunAttrGetFirstByType_encode hfits hlast (hfp ▸ hnone)
  obtain ⟨-, hread⟩ := Message.readAttr_encode hfits hlast
  rw [← Message.body] at hread
  rw [hfp, ← Message.body] at hfirst
  have hsplit : (m.add fp).encode = m.before fp ++ (fp.encode ++ []) := by
    rw [Message.encode_add, List.append_nil]
  refine ⟨Message.stunIsCommandMessage_encode hfits htype hcookie, hfirst, ?_, ?_⟩
  · rw [← m.length_before fp, hsplit, stunAttrGetLen_append (by omega), hfour]
  · rw [hread, hvalue, Message.encode_add, List.take_left' (m.length_before fp)]

/-- **Fingerprints pass.** Whatever message is built, without a fingerprint of its own, it passes
the full check once its fingerprint is added. -/
theorem fingerprint_passes (c : MsgClass) (method : BitVec 16) (tid : BitVec 96)
    (as : List Attribute) (hnone : ∀ a ∈ as, a.type ≠ stunAttributeFingerprint) {buf : List UInt8}
    (hadd : stunAttrAddFingerprint (as.foldl addOrKeep (stunInitCommand (c.make method) tid)) =
      some buf) (must : Bool) :
    stunIsCommandMessageFullCheck buf must = (true, some true) := by
  obtain ⟨hbuilt, hfits⟩ := foldl_stunInitCommand c method tid as
  rw [hbuilt] at hadd
  have hsub : ∀ a ∈ (Message.new c method tid (accepted stunHeaderLength as)).attrs,
      a.type ≠ stunAttributeFingerprint :=
    fun a ha => hnone a (accepted_subset _ as ha)
  obtain ⟨hcmd, hsar, hlen, hvalue⟩ := fingerprinted hfits (toNat_masked_lt _) rfl hsub hadd
  rw [fullCheck_of_found hcmd hsar hlen, hvalue]
  simp

/-- A binding request with its fingerprint passes. -/
theorem fingerprint_passes_binding :
    ∃ buf, stunAttrAddFingerprint ([⟨0x8022, [1, 2, 3]⟩].foldl addOrKeep
      (stunInitCommand (MsgClass.request.make 1) 7)) = some buf ∧
        stunIsCommandMessageFullCheck buf true = (true, some true) := by
  obtain ⟨buf, hbuf⟩ : ∃ buf, stunAttrAddFingerprint ([⟨0x8022, [1, 2, 3]⟩].foldl addOrKeep
      (stunInitCommand (MsgClass.request.make 1) 7)) = some buf :=
    Option.isSome_iff_exists.mp (by decide +kernel)
  exact ⟨buf, hbuf, fingerprint_passes .request 1 7 _ (by decide) hbuf true⟩

/-- A buffer that passes with its fingerprint: what the check has seen. -/
theorem fullCheck_present {buf : List UInt8} {must : Bool} {sar : Nat}
    (hpass : (stunIsCommandMessageFullCheck buf must).2 = some true)
    (hsar : stunAttrGetFirstByType buf stunAttributeFingerprint.toNat = some sar) :
    stunIsCommandMessage buf = true ∧ stunAttrGetLen buf sar = 4 ∧
      (readAttr buf sar).value = fingerprintOf (buf.take sar) := by
  cases hcmd : stunIsCommandMessage buf with
  | false =>
    rw [stunIsCommandMessageFullCheck, hcmd] at hpass
    cases hpass
  | true =>
    by_cases hlen : stunAttrGetLen buf sar = 4
    · rw [fullCheck_of_found hcmd hsar hlen] at hpass
      refine ⟨rfl, hlen, ?_⟩
      by_contra hne
      simp [hne] at hpass
    · simp [stunIsCommandMessageFullCheck, hcmd, hsar, hlen] at hpass

/-- Nothing behind a byte changes with it. -/
theorem drop_set_of_lt {buf : List UInt8} {i k : Nat} (h : i < k) (c : UInt8) :
    (buf.set i c).drop k = buf.drop k := by
  rw [List.drop_set, if_pos h]

/-- **Damage shows.** A buffer that passes with its fingerprint does not pass with another byte in
one place before it, as long as the fingerprint is still found where it was. -/
theorem damaged_rejected {buf : List UInt8} {sar i : Nat} {c : UInt8} {must : Bool}
    (hpass : (stunIsCommandMessageFullCheck buf must).2 = some true)
    (hsar : stunAttrGetFirstByType buf stunAttributeFingerprint.toNat = some sar) (hi : i < sar)
    (hc : buf[i]? ≠ some c)
    (hsar' : stunAttrGetFirstByType (buf.set i c) stunAttributeFingerprint.toNat = some sar)
    (must' : Bool) : (stunIsCommandMessageFullCheck (buf.set i c) must').1 = false := by
  obtain ⟨hcmd, hlen, hvalue⟩ := fullCheck_present hpass hsar
  have hin := (stunAttrs_inside buf).1 sar (List.mem_of_find?_eq_some hsar)
  have hbyte : i < buf.length := by omega
  have hlen' : stunAttrGetLen (buf.set i c) sar = 4 := by
    rw [stunAttrGetLen, numAt, drop_set_of_lt (by omega)]
    exact hlen
  have hvalue' : (readAttr (buf.set i c) sar).value = (readAttr buf sar).value := by
    simp only [readAttr, hlen, hlen', drop_set_of_lt (show i < sar + 4 by omega)]
  cases hcmd' : stunIsCommandMessage (buf.set i c) with
  | false => simp [stunIsCommandMessageFullCheck, hcmd']
  | true =>
    rw [fullCheck_of_found hcmd' hsar' hlen', hvalue', hvalue, beq_eq_false_iff_ne]
    rw [List.take_set]
    exact fingerprintOf_set_ne (by rw [List.length_take]; omega)
      (by rw [List.getElem?_take_of_lt hi]; exact hc)

/-- A binding request with nothing but its fingerprint. -/
def bindingRequest (tid : BitVec 96) : Message :=
  ⟨1, stunMagicCookie, tid, [⟨stunAttributeFingerprint, [178, 170, 249, 246]⟩]⟩

/-- The fingerprint of the request is found behind its header. -/
theorem found_bindingRequest (tid : BitVec 96) :
    stunIsCommandMessage (bindingRequest tid).encode = true ∧
    stunAttrGetFirstByType (bindingRequest tid).encode stunAttributeFingerprint.toNat =
      some 20 := by
  have hbody : (bindingRequest tid).body.length = 8 := by
    simp [Message.body, bindingRequest, round4]
  have hfits : (bindingRequest tid).Fits := by
    rw [Message.Fits, Message.length_encode, hbody]
    decide
  have htype : (bindingRequest tid).type.toNat < 0x4000 := by
    simp [bindingRequest]
  have hattrs : (bindingRequest tid).attrs =
      [] ++ ⟨stunAttributeFingerprint, [178, 170, 249, 246]⟩ :: [] := rfl
  have hfirst := Message.stunAttrGetFirstByType_encode hfits hattrs (by simp)
  rw [List.flatMap_nil, List.length_nil, Nat.add_zero] at hfirst
  exact ⟨Message.stunIsCommandMessage_encode hfits htype rfl, hfirst⟩

/-- A byte of the transaction id has been changed. -/
theorem damaged_rejected_tid :
    (stunIsCommandMessageFullCheck ((bindingRequest 0).encode.set 8 1) true).1 = false := by
  obtain ⟨hcmd, hsar⟩ := found_bindingRequest 0
  have hset : (bindingRequest 0).encode.set 8 1 = (bindingRequest (2 ^ 88)).encode := by
    decide +kernel
  have hpass : (stunIsCommandMessageFullCheck (bindingRequest 0).encode true).2 = some true := by
    rw [fullCheck_of_found hcmd hsar (by decide +kernel)]
    decide +kernel
  have hsar' := (found_bindingRequest (2 ^ 88)).2
  rw [← hset] at hsar'
  exact damaged_rejected hpass hsar (by decide) (by decide +kernel) hsar' true

end WebrtcCaller.Turn
