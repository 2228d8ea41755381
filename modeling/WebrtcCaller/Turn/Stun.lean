import Mathlib
import WebrtcCaller.Turn.Address

/-!
# Messages

The message format of `ns_turn_msg.c`: a header of twenty bytes, then attributes, each with its
type, its length and its value padded to a multiple of four. A buffer is the list of its bytes, and
a reference to an attribute its offset in the buffer. Messages are built by adding attributes, and
read by walking over them; the walk trusts no length it reads.
-/

namespace WebrtcCaller.Turn

/-- `STUN_HEADER_LENGTH`. -/
def stunHeaderLength : Nat := 20

/-- `MAX_STUN_MESSAGE_SIZE`. -/
def maxStunMessageSize : Nat := 65507

/-- `STUN_VALID_CHANNEL`. -/
def stunValidChannel (chnum : Nat) : Bool := decide (0x4000 ≤ chnum ∧ chnum ≤ 0x7FFF)

/-- The bytes of a text. -/
def ascii (s : String) : List UInt8 := s.toList.map fun c => UInt8.ofNat c.toNat

/-- The bytes of a string up to the zero that ends it. -/
def cstr (s : List UInt8) : List UInt8 := s.takeWhile (· != 0)

/-! ### Message types -/

/-- `stun_make_type`: the bits of the method make room for those of the class. -/
def stunMakeType (method : BitVec 16) : BitVec 16 :=
  let method := method &&& 0x0FFF
  (method &&& 0x000F) ||| ((method &&& 0x0070) <<< 1) ||| ((method &&& 0x0380) <<< 2) |||
    ((method &&& 0x0C00) <<< 2)

/-- `stun_make_request`. -/
def stunMakeRequest (method : BitVec 16) : BitVec 16 := stunMakeType method &&& 0xFEEF

/-- `stun_make_indication`. -/
def stunMakeIndication (method : BitVec 16) : BitVec 16 :=
  (stunMakeType method &&& 0xFEEF) ||| 0x0010

/-- `stun_make_success_response`. -/
def stunMakeSuccessResponse (method : BitVec 16) : BitVec 16 :=
  (stunMakeType method &&& 0xFEEF) ||| 0x0100

/-- `stun_make_error_response`. -/
def stunMakeErrorResponse (method : BitVec 16) : BitVec 16 := stunMakeType method ||| 0x0110

/-- The first two bytes of a buffer. -/
def typeWord (buf : List UInt8) : BitVec 16 := BitVec.ofNat 16 (numAt 2 buf 0)

/-- `stun_get_method_str`. -/
def stunGetMethod (buf : List UInt8) : BitVec 16 :=
  if buf.length < 2 then 0xFFFF
  else
    let tt := typeWord buf
    (tt &&& 0x000F) ||| ((tt &&& 0x00E0) >>> 1) ||| ((tt &&& 0x0E00) >>> 2) |||
      ((tt &&& 0x3000) >>> 2)

/-- `stun_get_msg_type_str`. -/
def stunGetMsgType (buf : List UInt8) : BitVec 16 :=
  if buf.length < 2 then 0xFFFF else typeWord buf &&& 0x3FFF

/-- `is_channel_msg_str`. -/
def isChannelMsg (buf : List UInt8) : Bool :=
  decide (4 ≤ buf.length) && stunValidChannel (numAt 2 buf 0)

/-- The classes of messages, by the two bits of the type that tell them apart. -/
inductive MsgClass
  | request
  | indication
  | successResponse
  | errorResponse
  deriving DecidableEq, Repr

/-- The two bits of a class. -/
def MsgClass.bits : MsgClass → BitVec 16
  | .request => 0x0000
  | .indication => 0x0010
  | .successResponse => 0x0100
  | .errorResponse => 0x0110

/-- The type of a message of the class. -/
def MsgClass.make : MsgClass → BitVec 16 → BitVec 16
  | .request => stunMakeRequest
  | .indication => stunMakeIndication
  | .successResponse => stunMakeSuccessResponse
  | .errorResponse => stunMakeErrorResponse

/-- `IS_STUN_REQUEST` and its kin, with the test for channel data before them. -/
def stunIsClass (c : MsgClass) (buf : List UInt8) : Bool :=
  !isChannelMsg buf && stunGetMsgType buf &&& 0x0110 == c.bits

/-- `stun_is_request_str`. -/
def stunIsRequest : List UInt8 → Bool := stunIsClass .request
/-- `stun_is_indication_str`. -/
def stunIsIndication : List UInt8 → Bool := stunIsClass .indication
/-- `stun_is_success_response_str`. -/
def stunIsSuccessResponse : List UInt8 → Bool := stunIsClass .successResponse

/-! ### Length -/

/-- The size the header claims, when the buffer holds as much. -/
def stunGetCommandMessageLen (buf : List UInt8) : Option Nat :=
  if buf.length < stunHeaderLength then none
  else
    let bufLen := numAt 2 buf 2 + stunHeaderLength
    if bufLen > buf.length then none else some bufLen

/-- `stun_set_command_message_len_str`. -/
def stunSetCommandMessageLen (buf : List UInt8) (len : Nat) : List UInt8 :=
  if len < stunHeaderLength then buf else putAt 2 (be 2 (len - stunHeaderLength)) buf

/-- `stun_is_command_message_str`. -/
def stunIsCommandMessage (buf : List UInt8) : Bool :=
  decide (stunHeaderLength ≤ buf.length) && !stunValidChannel (numAt 2 buf 0) &&
    numAt 1 buf 0 &&& 0xC0 == 0 && numAt 4 buf 4 == stunMagicCookie.toNat &&
    numAt 2 buf 2 &&& 3 == 0 && numAt 2 buf 2 + stunHeaderLength == buf.length

/-! ### Attributes -/

/-- `stun_attr_get_type`. -/
def stunAttrGetType (buf : List UInt8) (attr : Nat) : Nat := numAt 2 buf attr

/-- `stun_attr_get_len`. -/
def stunAttrGetLen (buf : List UInt8) (attr : Nat) : Nat := numAt 2 buf (attr + 2)

/-- The value of an attribute; an empty one has none. -/
def stunAttrGetValue (buf : List UInt8) (attr : Nat) : Option (List UInt8) :=
  let len := stunAttrGetLen buf attr
  if len < 1 then none else some ((buf.drop (attr + 4)).take len)

/-- Round to boundary. -/
def round4 (n : Nat) : Nat := if n % 4 ≠ 0 then n + 4 - n % 4 else n

/-- `stun_attr_check_valid`: the attribute ends before the message does. -/
def stunAttrCheckValid (buf : List UInt8) (attr remaining : Nat) : Option Nat :=
  if 4 ≤ remaining ∧ round4 (stunAttrGetLen buf attr) ≤ remaining - 4 then some attr else none

/-- `stun_attr_get_first_str`. -/
def stunAttrGetFirst (buf : List UInt8) : Option Nat :=
  match stunGetCommandMessageLen buf with
  | some bufLen =>
    if bufLen > stunHeaderLength then
      stunAttrCheckValid buf stunHeaderLength (bufLen - stunHeaderLength)
    else none
  | none => none

/-- `stun_attr_get_next_str`. -/
def stunAttrGetNext (buf : List UInt8) (prev : Nat) : Option Nat :=
  match stunGetCommandMessageLen buf with
  | some bufLen =>
    let attrEnd := prev + 4 + round4 (stunAttrGetLen buf prev)
    if attrEnd < bufLen then stunAttrCheckValid buf attrEnd (bufLen - attrEnd) else none
  | none => none

/-- A message is no longer than the buffer it is in. -/
theorem stunGetCommandMessageLen_le {buf : List UInt8} {n : Nat}
    (h : stunGetCommandMessageLen buf = some n) : n ≤ buf.length := by
  unfold stunGetCommandMessageLen at h
  simp only at h
  split_ifs at h with hshort hlong
  obtain rfl := Option.some.inj h
  exact Nat.not_lt.mp hlong

/-- The next attribute begins where the last one ends, padded, and ends inside the buffer. -/
theorem stunAttrGetNext_some {buf : List UInt8} {prev next : Nat}
    (h : stunAttrGetNext buf prev = some next) :
    next = prev + 4 + round4 (stunAttrGetLen buf prev) ∧
      next + 4 + round4 (stunAttrGetLen buf next) ≤ buf.length := by
  unfold stunAttrGetNext at h
  cases hlen : stunGetCommandMessageLen buf with
  | none =>
    rw [hlen] at h
    cases h
  | some n =>
    have hle := stunGetCommandMessageLen_le hlen
    rw [hlen] at h
    simp only [stunAttrCheckValid] at h
    split_ifs at h with hin hfit
    obtain rfl := Option.some.inj h
    omega

/-- The attributes from one on, as the loops over a message visit them. -/
def stunAttrsFrom (buf : List UInt8) (attr : Nat) : List Nat :=
  attr :: match _h : stunAttrGetNext buf attr with
    | some next => stunAttrsFrom buf next
    | none => []
termination_by buf.length - attr
decreasing_by
  have hnext := stunAttrGetNext_some ‹stunAttrGetNext buf attr = some _›
  omega

/-- The walk ends at an attribute without a next one. -/
theorem stunAttrsFrom_none {buf : List UInt8} {attr : Nat} (h : stunAttrGetNext buf attr = none) :
    stunAttrsFrom buf attr = [attr] := by
  rw [stunAttrsFrom]
  split
  · rename_i hnext
    rw [h] at hnext
    cases hnext
  · rfl

/-- The walk goes on to the next attribute. -/
theorem stunAttrsFrom_some {buf : List UInt8} {attr next : Nat}
    (h : stunAttrGetNext buf attr = some next) :
    stunAttrsFrom buf attr = attr :: stunAttrsFrom buf next := by
  rw [stunAttrsFrom]
  split
  · rename_i hnext
    rw [h] at hnext
    rw [Option.some.inj hnext]
  · rename_i hnext
    rw [h] at hnext
    cases hnext

/-- The attributes of a message, by their offsets. -/
def stunAttrs (buf : List UInt8) : List Nat :=
  match stunAttrGetFirst buf with
  | some attr => stunAttrsFrom buf attr
  | none => []

/-- `stun_attr_get_first_by_type_str`. -/
def stunAttrGetFirstByType (buf : List UInt8) (attrType : Nat) : Option Nat :=
  (stunAttrs buf).find? fun attr => stunAttrGetType buf attr == attrType

/-- `stun_attr_add_str`. The attribute is written where the message ends by its header, over
anything that follows; the padding is zeroed. A buffer that holds no whole message is left out: the
code would write before its start. -/
def stunAttrAdd (buf : List UInt8) (attr : Nat) (avalue : List UInt8) : Option (List UInt8) :=
  (stunGetCommandMessageLen buf).bind fun clen =>
    let newlen := round4 (clen + 4 + avalue.length)
    if newlen ≥ maxStunMessageSize then none
    else
      let paddinglen := newlen - (clen + 4 + avalue.length)
      some (stunSetCommandMessageLen (buf.take clen) newlen ++ be 2 attr ++ be 2 avalue.length ++
        avalue ++ List.replicate paddinglen 0)

/-! ### Making messages -/

/-- `stun_init_command_str`, with the transaction id it generates. -/
def stunInitCommand (messageType : BitVec 16) (tid : BitVec 96) : List UInt8 :=
  be 2 (messageType &&& 0x3FFF).toNat ++ be 2 0 ++ be 4 stunMagicCookie.toNat ++ be 12 tid.toNat

/-- `stun_tid_from_message_str`. -/
def stunTidFromMessage (buf : List UInt8) : BitVec 96 := BitVec.ofNat 96 (numAt 12 buf 8)

end WebrtcCaller.Turn
