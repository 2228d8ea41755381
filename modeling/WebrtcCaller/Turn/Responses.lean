import Mathlib
import WebrtcCaller.Turn.Message

/-!
# Addresses and errors in messages

The attributes with an inner format: transport addresses, masked with the cookie and the transaction
id and mapped between the public and the private addresses of the server, and error codes with their
reasons.
-/

namespace WebrtcCaller.Turn

/-! ### Addresses -/

/-- The public and private addresses of the server, in pairs. -/
abbrev AddrMapping := List (IoaAddr × IoaAddr)

/-- `map_addr_from_public_to_private`: the first pair with the host decides, and the port stays. -/
def mapAddrFromPublicToPrivate (mapping : AddrMapping) (publicAddr : IoaAddr) : IoaAddr :=
  match mapping.find? fun e => addrEqNoPort publicAddr e.1 with
  | some e => addrSetPort (addrGetPort publicAddr) e.2
  | none => publicAddr

/-- `map_addr_from_private_to_public`. -/
def mapAddrFromPrivateToPublic (mapping : AddrMapping) (privateAddr : IoaAddr) : IoaAddr :=
  match mapping.find? fun e => addrEqNoPort privateAddr e.2 with
  | some e => addrSetPort (addrGetPort privateAddr) e.1
  | none => privateAddr

/-- `STUN_ATTRIBUTE_XOR_MAPPED_ADDRESS`. -/
def stunAttributeXorMappedAddress : BitVec 16 := 0x0020
/-- `STUN_ATTRIBUTE_XOR_PEER_ADDRESS`. -/
def stunAttributeXorPeerAddress : BitVec 16 := 0x0012
/-- `STUN_ATTRIBUTE_XOR_RELAYED_ADDRESS`. -/
def stunAttributeXorRelayedAddress : BitVec 16 := 0x0016

/-- The attributes whose addresses are masked. -/
def isXorEd (attrType : BitVec 16) : Bool :=
  [stunAttributeXorMappedAddress, stunAttributeXorPeerAddress,
    stunAttributeXorRelayedAddress].contains attrType

/-- `stun_attr_is_addr`, by the type of the attribute. -/
def stunAttrIsAddr (attrType : BitVec 16) : Bool :=
  isXorEd attrType ||
    [0x0001, 0x8023, 0x0002, 0x0004, 0x0005, 0x000B, 0x802B, 0x802C].contains attrType

/-- `stun_attr_add_addr_str`: the public address goes out. -/
def stunAttrAddAddr (mapping : AddrMapping) (buf : List UInt8) (attrType : BitVec 16)
    (ca : IoaAddr) : Option (List UInt8) :=
  stunAttrAdd buf attrType.toNat (stunAddrEncode (isXorEd attrType) stunMagicCookie
    (stunTidFromMessage buf) (mapAddrFromPrivateToPublic mapping ca))

/-- `stun_attr_get_addr_str`: without a host the default address is taken, with the port. -/
def stunAttrGetAddr (mapping : AddrMapping) (buf : List UInt8) (attr : Nat)
    (defaultAddr : Option IoaAddr) : Option IoaAddr :=
  (stunAttrGetValue buf attr).bind fun cfield =>
    (stunAddrDecode (isXorEd (BitVec.ofNat 16 (stunAttrGetType buf attr))) stunMagicCookie
      (stunTidFromMessage buf) cfield).map fun publicAddr =>
        let ca := mapAddrFromPublicToPrivate mapping publicAddr
        match defaultAddr with
        | some d =>
          if addrAnyNoPort ca ∧ !addrAnyNoPort d then addrSetPort (addrGetPort ca) d else ca
        | none => ca

/-- `stun_attr_get_first_addr_str`. -/
def stunAttrGetFirstAddr (mapping : AddrMapping) (buf : List UInt8) (attrType : BitVec 16)
    (defaultAddr : Option IoaAddr) : Option IoaAddr :=
  (stunAttrs buf).findSome? fun attr =>
    if stunAttrIsAddr (BitVec.ofNat 16 (stunAttrGetType buf attr)) ∧
        attrType.toNat = stunAttrGetType buf attr then
      stunAttrGetAddr mapping buf attr defaultAddr
    else none

/-- The mapping gives the address back. -/
def GivesBack (mapping : AddrMapping) (a : IoaAddr) : Prop :=
  mapAddrFromPublicToPrivate mapping (mapAddrFromPrivateToPublic mapping a) = a

/-- Changing the port keeps the host. -/
theorem addrEqNoPort_setPort (port : Nat) {a : IoaAddr} (h : a ≠ .unspec) :
    addrEqNoPort (addrSetPort port a) a = true := by
  cases a with
  | unspec => exact absurd rfl h
  | inet addr p => simp [addrEqNoPort, addrSetPort]
  | inet6 addr p => simp [addrEqNoPort, addrSetPort]

/-- Two addresses with one host differ in the port alone. -/
theorem addrSetPort_getPort {a b : IoaAddr} (h : addrEqNoPort a b = true) :
    addrSetPort (addrGetPort a) b = a := by
  cases a <;> cases b <;> simp_all [addrEqNoPort, addrSetPort, addrGetPort]

/-- The port that was set is read back. -/
theorem addrGetPort_setPort {a b : IoaAddr} (h : b ≠ .unspec) :
    addrGetPort (addrSetPort (addrGetPort a) b) = addrGetPort a := by
  have hlt : addrGetPort a < 2 ^ 16 := by
    cases a with
    | unspec => decide
    | inet addr port => exact port.isLt
    | inet6 addr port => exact port.isLt
  cases b with
  | unspec => exact absurd rfl h
  | inet addr port => exact Nat.mod_eq_of_lt hlt
  | inet6 addr port => exact Nat.mod_eq_of_lt hlt

/-- A mapping gives an address back if its public addresses are of different hosts, and the address
is not one of them unless it is a private one as well. -/
theorem givesBack_of_distinct {mapping : AddrMapping} {a : IoaAddr}
    (hdistinct : mapping.Pairwise fun e e' => addrEqNoPort e.1 e'.1 = false)
    (hdecoded : ∀ e ∈ mapping, e.1 ≠ .unspec)
    (hpublic : (∃ e ∈ mapping, addrEqNoPort a e.2 = true) ∨
      ∀ e ∈ mapping, addrEqNoPort a e.1 = false) : GivesBack mapping a := by
  unfold GivesBack mapAddrFromPrivateToPublic
  cases hf : mapping.find? fun e => addrEqNoPort a e.2 with
  | none =>
    have hnone : ∀ e ∈ mapping, addrEqNoPort a e.1 = false := by
      refine hpublic.resolve_left ?_
      rintro ⟨e, he, heq⟩
      exact List.find?_eq_none.mp hf e he heq
    have hpub : (mapping.find? fun e => addrEqNoPort a e.1) = none := by
      rw [List.find?_eq_none]
      intro e he
      simp [hnone e he]
    simp only [mapAddrFromPublicToPrivate, hpub]
  | some e =>
    obtain ⟨he, pre, post, rfl, hpre⟩ := List.find?_eq_some_iff_append.mp hf
    have hspec := hdecoded e (by simp)
    have hpub : ((pre ++ e :: post).find? fun e' =>
        addrEqNoPort (addrSetPort (addrGetPort a) e.1) e'.1) = some e := by
      rw [List.find?_eq_some_iff_append]
      refine ⟨addrEqNoPort_setPort _ hspec, pre, post, rfl, fun e' he' => ?_⟩
      have hne := (List.pairwise_append.mp hdistinct).2.2 e' he' e List.mem_cons_self
      rw [Bool.not_eq_true', Bool.eq_false_iff]
      intro heq
      rw [addrEqNoPort_symm (addrEqNoPort_trans (addrEqNoPort_symm
        (addrEqNoPort_setPort (addrGetPort a) hspec)) heq)] at hne
      cases hne
    simp only [mapAddrFromPublicToPrivate, hpub]
    rw [addrGetPort_setPort hspec]
    exact addrSetPort_getPort he

/-- The attribute an address is put into. -/
def addrAttribute (mapping : AddrMapping) (tid : BitVec 96) (attrType : BitVec 16) (ca : IoaAddr) :
    Attribute :=
  ⟨attrType, stunAddrEncode (isXorEd attrType) stunMagicCookie tid
    (mapAddrFromPrivateToPublic mapping ca)⟩

/-- No public address is `unspec`, which stays as it is. -/
theorem mapAddrFromPublicToPrivate_unspec (mapping : AddrMapping) :
    mapAddrFromPublicToPrivate mapping .unspec = .unspec := by
  have hnone : (mapping.find? fun e => addrEqNoPort .unspec e.1) = none := by
    rw [List.find?_eq_none]
    intro e _
    simp [addrEqNoPort]
  simp only [mapAddrFromPublicToPrivate, hnone]

/-- An address that is given back has a public address with a family. -/
theorem GivesBack.ne_unspec {mapping : AddrMapping} {a : IoaAddr} (h : GivesBack mapping a)
    (ha : a ≠ .unspec) : mapAddrFromPrivateToPublic mapping a ≠ .unspec := by
  intro hmapped
  rw [GivesBack, hmapped, mapAddrFromPublicToPrivate_unspec] at h
  exact ha h.symm

/-- An address is read from the first attribute of its type. -/
theorem Message.stunAttrGetFirstAddr_encode {m : Message} (h : m.Fits) {mapping : AddrMapping}
    {attrType : BitVec 16} (htype : stunAttrIsAddr attrType = true) {a : IoaAddr}
    (hback : GivesBack mapping a) (ha : a ≠ .unspec) {pre post : List Attribute}
    (hattrs : m.attrs = pre ++ addrAttribute mapping m.tid attrType a :: post)
    (hpre : ∀ b ∈ pre, b.type ≠ attrType) :
    stunAttrGetFirstAddr mapping m.encode attrType none = some a := by
  obtain ⟨hread, hat⟩ := readAttr_encode h hattrs
  generalize hk : stunHeaderLength + (pre.flatMap Attribute.encode).length = k at hat
  have hdecode : stunAddrDecode (isXorEd attrType) stunMagicCookie m.tid
      (addrAttribute mapping m.tid attrType a).value =
        some (mapAddrFromPrivateToPublic mapping a) :=
    stunAddrDecode_encode (hback.ne_unspec ha)
  have hvalue : stunAttrGetValue m.encode k =
      some (addrAttribute mapping m.tid attrType a).value := by
    rw [← hk]
    apply stunAttrGetValue_encode h hattrs
    intro hnil
    rw [hnil] at hdecode
    cases hdecode
  have hnum : stunAttrGetType m.encode k = attrType.toNat := by
    apply eq_of_beq
    rw [stunAttrGetType_beq, hat, decide_eq_true_eq]
    rfl
  have hword : BitVec.ofNat 16 attrType.toNat = attrType := by
    rw [BitVec.ofNat_toNat, BitVec.setWidth_eq]
  have hget : stunAttrGetAddr mapping m.encode k none = some a := by
    rw [stunAttrGetAddr, hvalue, Option.bind_some, hnum, hword, stunTidFromMessage_encode, hdecode,
      Option.map_some]
    exact congrArg some hback
  have hnone : (offsets stunHeaderLength pre).findSome? (fun r =>
      if stunAttrIsAddr (BitVec.ofNat 16 (stunAttrGetType m.encode r)) ∧
          attrType.toNat = stunAttrGetType m.encode r then
        stunAttrGetAddr mapping m.encode r none else none) = none := by
    rw [List.findSome?_eq_none_iff]
    intro r hr
    have hmem : readAttr m.encode r ∈ pre := by
      rw [← hread]
      exact List.mem_map_of_mem hr
    have hother := stunAttrGetType_beq m.encode r attrType
    rw [decide_eq_false (hpre _ hmem), beq_eq_false_iff_ne] at hother
    exact if_neg fun hboth => hother hboth.2.symm
  unfold stunAttrGetFirstAddr
  rw [stunAttrs_encode h, hattrs, offsets_append, List.findSome?_append, hnone, Option.none_or,
    offsets, hk, List.findSome?_cons, hnum, hword, if_pos ⟨htype, rfl⟩, hget]

/-! ### Building with addresses -/

/-- What is put into a message: any attribute, or an address. -/
inductive Item
  | attr (a : Attribute)
  | addr (attrType : BitVec 16) (ca : IoaAddr)

/-- The attribute an item becomes. -/
def Item.attribute (mapping : AddrMapping) (tid : BitVec 96) : Item → Attribute
  | .attr a => a
  | .addr attrType ca => addrAttribute mapping tid attrType ca

/-- One item added; a refusal leaves the message as it was. -/
def addItem (mapping : AddrMapping) (buf : List UInt8) : Item → List UInt8
  | .attr a => addOrKeep buf a
  | .addr attrType ca => (stunAttrAddAddr mapping buf attrType ca).getD buf

/-- Items added one after the other: the transaction id they are masked with stays. -/
theorem foldl_addItem {m : Message} (h : m.Fits) (mapping : AddrMapping) (is : List Item) :
    is.foldl (addItem mapping) m.encode =
      (is.map (Item.attribute mapping m.tid)).foldl addOrKeep m.encode := by
  induction is using List.reverseRecOn with
  | nil => rfl
  | append_singleton is i ih =>
    rw [List.map_append, List.foldl_append, List.foldl_append, ih, List.map_singleton]
    obtain ⟨hbuilt, -⟩ := foldl_addOrKeep h (is.map (Item.attribute mapping m.tid))
    rw [hbuilt]
    cases i with
    | attr a => rfl
    | addr attrType ca =>
      simp only [List.foldl_cons, List.foldl_nil, addItem, addOrKeep, stunAttrAddAddr,
        Message.stunTidFromMessage_encode, Item.attribute, addrAttribute]

/-- **Addresses come back.** An address put into a message of any kind, among any other attributes
and addresses there was room for, is read back from it, unless one of its type stood before it. -/
theorem addr_read_back (mapping : AddrMapping) (c : MsgClass) (method : BitVec 16) (tid : BitVec 96)
    (pre post : List Item) {attrType : BitVec 16} {a : IoaAddr}
    (htype : stunAttrIsAddr attrType = true) (hback : GivesBack mapping a) (ha : a ≠ .unspec)
    (hpre : ∀ i ∈ pre, (i.attribute mapping tid).type ≠ attrType)
    (hroom : accepted stunHeaderLength
        ((pre ++ .addr attrType a :: post).map (Item.attribute mapping tid)) =
      (pre ++ .addr attrType a :: post).map (Item.attribute mapping tid)) :
    stunAttrGetFirstAddr mapping ((pre ++ .addr attrType a :: post).foldl (addItem mapping)
      (stunInitCommand (c.make method) tid)) attrType none = some a := by
  obtain ⟨hinit, hempty⟩ := foldl_stunInitCommand c method tid []
  rw [List.foldl_nil] at hinit
  obtain ⟨hbuilt, hfits⟩ := foldl_stunInitCommand c method tid
    ((pre ++ .addr attrType a :: post).map (Item.attribute mapping tid))
  have hsame : (pre ++ .addr attrType a :: post).foldl (addItem mapping)
      (stunInitCommand (c.make method) tid) =
        ((pre ++ .addr attrType a :: post).map (Item.attribute mapping tid)).foldl addOrKeep
          (stunInitCommand (c.make method) tid) := by
    rw [hinit]
    exact foldl_addItem hempty mapping _
  rw [hroom] at hbuilt hfits
  rw [hsame, hbuilt]
  apply Message.stunAttrGetFirstAddr_encode hfits htype hback ha (List.map_append ..)
  intro b hb
  obtain ⟨i, hi, rfl⟩ := List.mem_map.mp hb
  exact hpre i hi

/-- A relayed address behind the server's mapping comes back as the private one. -/
theorem addr_read_back_relayed :
    stunAttrGetFirstAddr [(.inet 0x01020304 0, .inet 0x0A000001 0)]
      ([.attr ⟨0x8022, [1, 2, 3]⟩,
          .addr stunAttributeXorRelayedAddress (.inet 0x0A000001 3478)].foldl
        (addItem [(.inet 0x01020304 0, .inet 0x0A000001 0)])
        (stunInitCommand (MsgClass.successResponse.make 3) 99))
      stunAttributeXorRelayedAddress none = some (.inet 0x0A000001 3478) := by
  apply addr_read_back _ .successResponse 3 99 [.attr ⟨0x8022, [1, 2, 3]⟩] []
  · decide
  · exact givesBack_of_distinct (by decide) (by decide) (.inl ⟨_, List.mem_cons_self, by decide⟩)
  · decide
  · decide
  · rfl

/-! ### Errors -/

/-- `STUN_ATTRIBUTE_ERROR_CODE`. -/
def stunAttributeErrorCode : BitVec 16 := 0x0009

/-- `get_default_reason`. -/
def getDefaultReason (errorCode : Nat) : List UInt8 :=
  match errorCode with
  | 300 => ascii "Try Alternate"
  | 400 => ascii "Bad Request"
  | 401 => ascii "Unauthorized"
  | 403 => ascii "Forbidden"
  | 404 => ascii "Not Found"
  | 420 => ascii "Unknown Attribute"
  | 437 => ascii "Allocation Mismatch"
  | 438 => ascii "Stale Nonce"
  | 440 => ascii "Address Family not Supported"
  | 441 => ascii "Wrong Credentials"
  | 442 => ascii "Unsupported Transport Protocol"
  | 443 => ascii "Peer Address Family Mismatch"
  | 446 => ascii "Connection Already Exists"
  | 447 => ascii "Connection Timeout or Failure"
  | 486 => ascii "Allocation Quota Reached"
  | 487 => ascii "Role Conflict"
  | 500 => ascii "Server Error"
  | 508 => ascii "Insufficient Capacity"
  | _ => ascii "Unknown error"

/-- The reason that is sent: the one given, if it says something, as far as the buffer for it
reaches. -/
def reasonSent (errorCode : Nat) (reason : Option (List UInt8)) : List UInt8 :=
  match reason with
  | some reason =>
    if cstr reason = ascii "Unknown error" then (cstr (getDefaultReason errorCode)).take 508
    else (cstr reason).take 508
  | none => (cstr (getDefaultReason errorCode)).take 508

/-- The attribute an error is put into, with the padding that is done by hand. -/
def errorAttribute (errorCode : Nat) (text : List UInt8) : Attribute :=
  ⟨stunAttributeErrorCode,
    [0, 0, UInt8.ofNat (errorCode / 100), UInt8.ofNat (errorCode % 100)] ++ (text ++
      List.replicate (round4 (4 + text.length) - (4 + text.length)) 0)⟩

/-- `stun_init_error_response_str`. -/
def stunInitErrorResponse (method : BitVec 16) (errorCode : Nat) (reason : Option (List UInt8))
    (tid : BitVec 96) : List UInt8 :=
  addOrKeep (stunInitCommand (stunMakeErrorResponse method) tid)
    (errorAttribute errorCode (reasonSent errorCode reason))

/-- `stun_is_error_response_str`: the code and the text of an error response, the text cut to the
buffer for it. -/
def stunIsErrorResponse (buf : List UInt8) (errMsgSize : Nat) :
    Option (Option (Nat × List UInt8)) :=
  if stunIsClass .errorResponse buf then
    some ((stunAttrGetFirstByType buf stunAttributeErrorCode.toNat).bind fun sar =>
      if stunAttrGetLen buf sar ≥ 4 then
        (stunAttrGetValue buf sar).map fun val =>
          ((val.getD 2 0).toNat * 100 + (val.getD 3 0).toNat,
            cstr ((val.drop 4).take (errMsgSize - 1)))
      else none)
  else none

/-- Zeros at the end are cut off with the padding. -/
theorem cstr_take_zeros {t : List UInt8} (h : ∀ c ∈ t, c ≠ 0) (n k : Nat) :
    cstr ((t ++ List.replicate n 0).take k) = t.take k := by
  rw [List.take_append, cstr, List.takeWhile_append_of_pos]
  · rw [List.take_replicate, List.takeWhile_replicate]
    simp
  · intro c hc
    simpa using h c (List.mem_of_mem_take hc)

/-- The reason that is sent contains no zero. -/
theorem reasonSent_ne_zero (errorCode : Nat) (reason : Option (List UInt8)) :
    ∀ c ∈ reasonSent errorCode reason, c ≠ 0 := by
  have hcstr : ∀ s : List UInt8, ∀ c ∈ (cstr s).take 508, c ≠ 0 := by
    intro s c hc
    simpa using List.mem_takeWhile_imp (List.mem_of_mem_take hc)
  unfold reasonSent
  cases reason with
  | none => exact hcstr _
  | some reason =>
    simp only
    split_ifs
    · exact hcstr _
    · exact hcstr _

theorem length_reasonSent_le (errorCode : Nat) (reason : Option (List UInt8)) :
    (reasonSent errorCode reason).length ≤ 508 := by
  unfold reasonSent
  cases reason with
  | none => exact List.length_take_le _ _
  | some reason =>
    simp only
    split_ifs
    · exact List.length_take_le _ _
    · exact List.length_take_le _ _

theorem length_errorAttribute (errorCode : Nat) (text : List UInt8) :
    (errorAttribute errorCode text).value.length = round4 (4 + text.length) := by
  have := le_round4 (4 + text.length)
  simp [errorAttribute]
  omega

/-- An error is read from an error response that begins with it. -/
theorem Message.stunIsErrorResponse_new {method : BitVec 16} {errorCode : Nat} {tid : BitVec 96}
    {text : List UInt8} (hcode : errorCode < 25600) (htext : ∀ c ∈ text, c ≠ 0)
    (h : (Message.new .errorResponse method tid [errorAttribute errorCode text]).Fits)
    (errMsgSize : Nat) :
    stunIsErrorResponse
        (Message.new .errorResponse method tid [errorAttribute errorCode text]).encode errMsgSize =
      some (some (errorCode, text.take (errMsgSize - 1))) := by
  have hlen := length_errorAttribute errorCode text
  have hlong := le_round4 (4 + text.length)
  have hattrs : (Message.new .errorResponse method tid [errorAttribute errorCode text]).attrs =
      [] ++ errorAttribute errorCode text :: [] := rfl
  have hclass := (Message.stunIsClass_new .errorResponse .errorResponse method tid
    [errorAttribute errorCode text]).mpr rfl
  have hfirst := stunAttrGetFirstByType_encode h hattrs fun b hb => absurd hb List.not_mem_nil
  have htype : (errorAttribute errorCode text).type = stunAttributeErrorCode := rfl
  have hvalue := stunAttrGetValue_encode h hattrs (by
    intro hnil
    rw [hnil, List.length_nil] at hlen
    omega)
  have hsize := stunAttrGetLen_encode h hattrs
  rw [List.flatMap_nil, List.length_nil, Nat.add_zero] at hfirst hvalue hsize
  have hnum : (UInt8.ofNat (errorCode / 100)).toNat * 100 + (UInt8.ofNat (errorCode % 100)).toNat =
      errorCode := by
    rw [UInt8.toNat_ofNat', UInt8.toNat_ofNat', Nat.mod_eq_of_lt (by omega),
      Nat.mod_eq_of_lt (by omega)]
    omega
  unfold stunIsErrorResponse
  rw [if_pos hclass]
  rw [htype] at hfirst
  rw [hfirst, Option.bind_some, hsize, if_pos (by omega), hvalue, Option.map_some]
  simp only [errorAttribute, List.cons_append, List.nil_append, List.getD_cons_zero,
    List.getD_cons_succ, List.drop_succ_cons, List.drop_zero, hnum, cstr_take_zeros htext]

end WebrtcCaller.Turn
