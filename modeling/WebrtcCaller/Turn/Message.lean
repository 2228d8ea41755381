import Mathlib
import WebrtcCaller.Turn.Stun

/-!
# What a message holds

A message is a type, a cookie, a transaction id and a list of attributes. The buffers the code
builds are exactly the encodings of such messages, and the code reads from them what was put in.
From a buffer that nobody built it reads nothing outside of it.
-/

namespace WebrtcCaller.Turn

/-- An attribute: a type and a value. -/
structure Attribute where
  type : BitVec 16
  value : List UInt8

/-- A message: the words of its header, and its attributes. -/
structure Message where
  type : BitVec 16
  cookie : BitVec 32
  tid : BitVec 96
  attrs : List Attribute

/-- Type, length and value, padded to a multiple of four. -/
def Attribute.encode (a : Attribute) : List UInt8 :=
  be 2 a.type.toNat ++ (be 2 a.value.length ++
    (a.value ++ List.replicate (round4 a.value.length - a.value.length) 0))

/-- The attributes one after the other. -/
def Message.body (m : Message) : List UInt8 := m.attrs.flatMap Attribute.encode

/-- The header and the body. -/
def Message.encode (m : Message) : List UInt8 :=
  be 2 m.type.toNat ++ (be 2 m.body.length ++ (be 4 m.cookie.toNat ++
    (be 12 m.tid.toNat ++ m.body)))

/-- The size of a message that may be sent. -/
def Message.Fits (m : Message) : Prop := m.encode.length < maxStunMessageSize

/-- The message with one more attribute. -/
def Message.add (m : Message) (a : Attribute) : Message := { m with attrs := m.attrs ++ [a] }

/-- Rounding up is no less. -/
theorem le_round4 (n : Nat) : n ≤ round4 n := by
  unfold round4
  split_ifs <;> omega

theorem round4_mod (n : Nat) : round4 n % 4 = 0 := by
  unfold round4
  split_ifs <;> omega

/-- A multiple of four stays out of the rounding. -/
theorem round4_add {k n : Nat} (h : k % 4 = 0) : round4 (k + n) = k + round4 n := by
  unfold round4
  split_ifs <;> omega

@[simp] theorem Attribute.length_encode (a : Attribute) :
    a.encode.length = 4 + round4 a.value.length := by
  have := le_round4 a.value.length
  simp [Attribute.encode]
  omega

namespace Message

variable (m : Message)

@[simp] theorem length_encode : m.encode.length = stunHeaderLength + m.body.length := by
  simp [encode, stunHeaderLength]
  omega

/-- What is added comes last. -/
theorem body_add (a : Attribute) : (m.add a).body = m.body ++ a.encode := by
  simp [body, add]

theorem body_mod : m.body.length % 4 = 0 := by
  unfold body
  induction m.attrs with
  | nil => rfl
  | cons a l ih =>
    rw [List.flatMap_cons, List.length_append, Attribute.length_encode]
    have := round4_mod a.value.length
    omega

/-! ### The header -/

variable {m}

/-- The length of the body fits its field. -/
theorem Fits.body_lt (h : m.Fits) : m.body.length < 256 ^ 2 := by
  unfold Fits maxStunMessageSize at h
  rw [length_encode] at h
  omega

theorem numAt_type : numAt 2 m.encode 0 = m.type.toNat :=
  numAt_append (l := []) rfl m.type.isLt

theorem numAt_length (h : m.Fits) : numAt 2 m.encode 2 = m.body.length :=
  numAt_append (length_be 2 _) h.body_lt

theorem numAt_cookie : numAt 4 m.encode 4 = m.cookie.toNat := by
  have hassoc : m.encode = (be 2 m.type.toNat ++ be 2 m.body.length) ++ (be 4 m.cookie.toNat ++
      (be 12 m.tid.toNat ++ m.body)) := by simp [encode]
  rw [hassoc]
  exact numAt_append (by simp) m.cookie.isLt

theorem numAt_tid : numAt 12 m.encode 8 = m.tid.toNat := by
  have hassoc : m.encode = (be 2 m.type.toNat ++ be 2 m.body.length ++ be 4 m.cookie.toNat) ++
      (be 12 m.tid.toNat ++ m.body) := by simp [encode]
  rw [hassoc]
  exact numAt_append (by simp) m.tid.isLt

/-- The length that is read from a message is its own. -/
theorem stunGetCommandMessageLen_encode (h : m.Fits) :
    stunGetCommandMessageLen m.encode = some m.encode.length := by
  have hlen := m.length_encode
  unfold stunGetCommandMessageLen
  rw [numAt_length h, hlen, if_neg (by omega)]
  simp [Nat.add_comm]

/-- The transaction id is read back. -/
theorem stunTidFromMessage_encode : stunTidFromMessage m.encode = m.tid := by
  rw [stunTidFromMessage, numAt_tid, BitVec.ofNat_toNat, BitVec.setWidth_eq]

/-! ### Adding -/

/-- An attribute is added as long as the message stays small enough to be sent. -/
theorem stunAttrAdd_encode (h : m.Fits) (a : Attribute) :
    stunAttrAdd m.encode a.type.toNat a.value =
      if (m.add a).encode.length < maxStunMessageSize then some (m.add a).encode else none := by
  have hmod := m.body_mod
  have hlen : (m.add a).body.length = m.body.length + (4 + round4 a.value.length) := by
    rw [body_add, List.length_append, Attribute.length_encode]
  have hnew : round4 (m.encode.length + 4 + a.value.length) = (m.add a).encode.length := by
    rw [length_encode, length_encode, hlen, round4_add]
    · omega
    · unfold stunHeaderLength
      omega
  have hset : stunSetCommandMessageLen m.encode (m.add a).encode.length =
      be 2 m.type.toNat ++ (be 2 (m.add a).body.length ++ (be 4 m.cookie.toNat ++
        (be 12 m.tid.toNat ++ m.body))) := by
    rw [stunSetCommandMessageLen, length_encode, if_neg (by omega), Nat.add_sub_cancel_left]
    exact putAt_append (length_be 2 _) (by simp)
  have hpad : (m.add a).encode.length - (m.encode.length + 4 + a.value.length) =
      round4 a.value.length - a.value.length := by
    rw [length_encode, length_encode, hlen]
    omega
  unfold stunAttrAdd
  rw [stunGetCommandMessageLen_encode h, Option.bind_some, hnew, List.take_length]
  simp only [hset, hpad, ge_iff_le]
  by_cases hfit : (m.add a).encode.length < maxStunMessageSize
  · rw [if_pos hfit, if_neg (Nat.not_le.mpr hfit), encode, body_add, Attribute.encode]
    simp [add]
  · rw [if_neg hfit, if_pos (Nat.not_lt.mp hfit)]

end Message

/-! ### Reading -/

/-- The attribute a reference stands for. -/
def readAttr (buf : List UInt8) (attr : Nat) : Attribute :=
  ⟨BitVec.ofNat 16 (stunAttrGetType buf attr), (buf.drop (attr + 4)).take (stunAttrGetLen buf attr)⟩

section Walk

variable {buf l r : List UInt8} {a : Attribute}

/-- The length of an attribute is read at its offset, whatever surrounds it. -/
theorem stunAttrGetLen_append (ha : a.value.length < 256 ^ 2) :
    stunAttrGetLen (l ++ (a.encode ++ r)) l.length = a.value.length := by
  have hassoc : l ++ (a.encode ++ r) = (l ++ be 2 a.type.toNat) ++ (be 2 a.value.length ++
      ((a.value ++ List.replicate (round4 a.value.length - a.value.length) 0) ++ r)) := by
    simp [Attribute.encode]
  rw [stunAttrGetLen, hassoc]
  exact numAt_append (by simp) ha

/-- An attribute is read at its offset, whatever surrounds it. -/
theorem readAttr_append (ha : a.value.length < 256 ^ 2) :
    readAttr (l ++ (a.encode ++ r)) l.length = a := by
  have htype : stunAttrGetType (l ++ (a.encode ++ r)) l.length = a.type.toNat := by
    rw [stunAttrGetType, Attribute.encode, List.append_assoc]
    exact numAt_append rfl a.type.isLt
  have hvalue : ((l ++ (a.encode ++ r)).drop (l.length + 4)).take a.value.length = a.value := by
    have hassoc : l ++ (a.encode ++ r) = (l ++ be 2 a.type.toNat ++ be 2 a.value.length) ++
        (a.value ++ (List.replicate (round4 a.value.length - a.value.length) 0 ++ r)) := by
      simp [Attribute.encode]
    rw [hassoc, List.drop_left' (by simp), List.take_left' rfl]
  rw [readAttr, htype, stunAttrGetLen_append ha, hvalue, BitVec.ofNat_toNat, BitVec.setWidth_eq]

/-- Where attributes begin that stand one behind the other. -/
def offsets (off : Nat) : List Attribute → List Nat
  | [] => []
  | a :: as => off :: offsets (off + a.encode.length) as

theorem length_offsets (off : Nat) (as : List Attribute) :
    (offsets off as).length = as.length := by
  induction as generalizing off with
  | nil => rfl
  | cons a as ih => rw [offsets, List.length_cons, List.length_cons, ih]

theorem offsets_append (off : Nat) (as bs : List Attribute) :
    offsets off (as ++ bs) =
      offsets off as ++ offsets (off + (as.flatMap Attribute.encode).length) bs := by
  induction as generalizing off with
  | nil => rfl
  | cons a as ih =>
    rw [List.cons_append, offsets, offsets, ih, List.cons_append, List.flatMap_cons,
      List.length_append, Nat.add_assoc]

theorem map_readAttr_offsets {as : List Attribute} (hlen : ∀ a ∈ as, a.value.length < 256 ^ 2) :
    (offsets l.length as).map (readAttr (l ++ as.flatMap Attribute.encode)) = as := by
  induction as generalizing l with
  | nil => rfl
  | cons a as ih =>
    have hassoc : l ++ (a :: as).flatMap Attribute.encode =
        (l ++ a.encode) ++ as.flatMap Attribute.encode := by
      simp
    have hrest := ih (l := l ++ a.encode) fun b hb => hlen b (List.mem_cons_of_mem a hb)
    rw [offsets, List.map_cons, List.flatMap_cons, readAttr_append (hlen a List.mem_cons_self)]
    rw [List.length_append] at hrest
    rw [← List.append_assoc, hrest]

/-- The walk from where the encoding of some attributes begins visits them all, in order. -/
theorem stunAttrsFrom_append {as : List Attribute} (hlen : ∀ a ∈ as, a.value.length < 256 ^ 2)
    (hbuf : stunGetCommandMessageLen (l ++ (a.encode ++ as.flatMap Attribute.encode)) =
      some (l ++ (a.encode ++ as.flatMap Attribute.encode)).length)
    (ha : a.value.length < 256 ^ 2) :
    stunAttrsFrom (l ++ (a.encode ++ as.flatMap Attribute.encode)) l.length =
      offsets l.length (a :: as) := by
  induction as generalizing l a with
  | nil =>
    have hnone : stunAttrGetNext (l ++ (a.encode ++ [])) l.length = none := by
      rw [List.flatMap_nil] at hbuf
      unfold stunAttrGetNext
      rw [hbuf, stunAttrGetLen_append ha]
      simp only [List.length_append, Attribute.length_encode, List.length_nil]
      rw [if_neg (by omega)]
    rw [List.flatMap_nil, stunAttrsFrom_none hnone]
    rfl
  | cons b as ih =>
    have hb := hlen b List.mem_cons_self
    have hassoc : l ++ (a.encode ++ (b :: as).flatMap Attribute.encode) =
        (l ++ a.encode) ++ (b.encode ++ as.flatMap Attribute.encode) := by
      simp
    have hnext : stunAttrGetNext (l ++ (a.encode ++ (b :: as).flatMap Attribute.encode)) l.length =
        some (l ++ a.encode).length := by
      unfold stunAttrGetNext
      rw [hbuf, stunAttrGetLen_append ha]
      have hlast : l.length + 4 + round4 a.value.length = (l ++ a.encode).length := by
        simp [Nat.add_assoc]
      have hmore : (l ++ a.encode).length + 4 + round4 b.value.length ≤
          (l ++ (a.encode ++ (b :: as).flatMap Attribute.encode)).length := by
        simp
        omega
      simp only [hlast]
      rw [if_pos (by omega), stunAttrCheckValid, hassoc, stunAttrGetLen_append hb, if_pos]
      rw [← hassoc]
      omega
    rw [stunAttrsFrom_some hnext, offsets]
    rw [hassoc] at hbuf ⊢
    rw [ih (fun c hc => hlen c (List.mem_cons_of_mem b hc)) hbuf hb, List.length_append]

end Walk

/-- The attributes of a message, as the walk finds them. -/
def stunAttributes (buf : List UInt8) : List Attribute := (stunAttrs buf).map (readAttr buf)

namespace Message

variable {m : Message}

theorem length_value_lt (h : m.Fits) {a : Attribute} (ha : a ∈ m.attrs) :
    a.value.length < 256 ^ 2 := by
  obtain ⟨l, r, hl⟩ := List.append_of_mem ha
  have hbody := h.body_lt
  have hround := le_round4 a.value.length
  rw [body, hl] at hbody
  simp only [List.flatMap_append, List.flatMap_cons, List.length_append,
    Attribute.length_encode] at hbody
  omega

/-- A message is its header and its attributes. -/
theorem encode_split (m : Message) : ∃ l, l.length = stunHeaderLength ∧
    m.encode = l ++ m.attrs.flatMap Attribute.encode := by
  refine ⟨be 2 m.type.toNat ++ be 2 m.body.length ++ be 4 m.cookie.toNat ++ be 12 m.tid.toNat,
    ?_, ?_⟩
  · simp [stunHeaderLength]
  · rw [encode, ← body]
    simp

/-- The walk visits every attribute. -/
theorem stunAttrs_encode (h : m.Fits) :
    stunAttrs m.encode = offsets stunHeaderLength m.attrs := by
  have hlen := stunGetCommandMessageLen_encode h
  obtain ⟨l, hl, hsplit⟩ := m.encode_split
  unfold stunAttrs stunAttrGetFirst
  cases hattrs : m.attrs with
  | nil =>
    rw [hattrs, List.flatMap_nil, List.append_nil] at hsplit
    rw [hlen, hsplit, hl]
    simp [offsets]
  | cons a as =>
    have ha : a.value.length < 256 ^ 2 := length_value_lt h (by simp [hattrs])
    have has : ∀ b ∈ as, b.value.length < 256 ^ 2 := by
      intro b hb
      exact length_value_lt h (by simp [hattrs, hb])
    rw [hattrs, List.flatMap_cons] at hsplit
    rw [hlen]
    rw [hsplit] at hlen ⊢
    have hfirst : stunAttrCheckValid (l ++ (a.encode ++ as.flatMap Attribute.encode))
        stunHeaderLength ((l ++ (a.encode ++ as.flatMap Attribute.encode)).length -
          stunHeaderLength) = some stunHeaderLength := by
      rw [stunAttrCheckValid, ← hl, stunAttrGetLen_append ha, if_pos]
      simp
      omega
    simp only [hfirst]
    rw [if_pos (by simp [hl]), ← hl]
    exact stunAttrsFrom_append has hlen ha

/-- At the offsets of its attributes a message has these attributes. -/
theorem map_readAttr_encode (h : m.Fits) :
    (offsets stunHeaderLength m.attrs).map (readAttr m.encode) = m.attrs := by
  obtain ⟨l, hl, hsplit⟩ := m.encode_split
  rw [hsplit, ← hl]
  exact map_readAttr_offsets fun a ha => length_value_lt h ha

/-- A message is read back with its attributes, in order. -/
theorem stunAttributes_encode (h : m.Fits) : stunAttributes m.encode = m.attrs := by
  rw [stunAttributes, stunAttrs_encode h, map_readAttr_encode h]

/-- Where an attribute of the message stands. -/
theorem readAttr_encode (h : m.Fits) {pre post : List Attribute} {a : Attribute}
    (hattrs : m.attrs = pre ++ a :: post) :
    (offsets stunHeaderLength pre).map (readAttr m.encode) = pre ∧
      readAttr m.encode (stunHeaderLength + (pre.flatMap Attribute.encode).length) = a := by
  have hmap := map_readAttr_encode h
  rw [hattrs, offsets_append, List.map_append, offsets, List.map_cons] at hmap
  obtain ⟨hpre, hrest⟩ := List.append_inj hmap (by rw [List.length_map, length_offsets])
  exact ⟨hpre, (List.cons.inj hrest).1⟩

/-- The length of an attribute is read behind those before it. -/
theorem stunAttrGetLen_encode (h : m.Fits) {pre post : List Attribute} {a : Attribute}
    (hattrs : m.attrs = pre ++ a :: post) :
    stunAttrGetLen m.encode (stunHeaderLength + (pre.flatMap Attribute.encode).length) =
      a.value.length := by
  obtain ⟨l, hl, hsplit⟩ := m.encode_split
  have hplace : m.encode = (l ++ pre.flatMap Attribute.encode) ++
      (a.encode ++ post.flatMap Attribute.encode) := by
    rw [hsplit, hattrs]
    simp
  rw [hplace, ← hl, ← List.length_append]
  exact stunAttrGetLen_append (length_value_lt h (by simp [hattrs]))

theorem stunAttrGetValue_encode (h : m.Fits) {pre post : List Attribute} {a : Attribute}
    (hattrs : m.attrs = pre ++ a :: post) (ha : a.value ≠ []) :
    stunAttrGetValue m.encode (stunHeaderLength + (pre.flatMap Attribute.encode).length) =
      some a.value := by
  have hread := (readAttr_encode h hattrs).2
  have hvalue := congrArg Attribute.value hread
  simp only [readAttr] at hvalue
  have hpos := List.length_pos_of_ne_nil ha
  rw [stunAttrGetValue, hvalue, stunAttrGetLen_encode h hattrs]
  exact if_neg (by omega)

/-- Comparing types is comparing the words they are read from. -/
theorem stunAttrGetType_beq (buf : List UInt8) (r : Nat) (t : BitVec 16) :
    (stunAttrGetType buf r == t.toNat) = decide ((readAttr buf r).type = t) := by
  have hlt : stunAttrGetType buf r < 2 ^ 16 := numAt_lt buf r
  rw [Bool.beq_eq_decide_eq, decide_eq_decide, readAttr, ← BitVec.toNat_inj, BitVec.toNat_ofNat,
    Nat.mod_eq_of_lt hlt]

/-- The first attribute of a type is found where it stands. -/
theorem stunAttrGetFirstByType_encode (h : m.Fits) {pre post : List Attribute} {a : Attribute}
    (hattrs : m.attrs = pre ++ a :: post) (hpre : ∀ b ∈ pre, b.type ≠ a.type) :
    stunAttrGetFirstByType m.encode a.type.toNat =
      some (stunHeaderLength + (pre.flatMap Attribute.encode).length) := by
  obtain ⟨hread, hat⟩ := readAttr_encode h hattrs
  have hnone : (offsets stunHeaderLength pre).find?
      (fun r => stunAttrGetType m.encode r == a.type.toNat) = none := by
    rw [List.find?_eq_none]
    intro r hr
    have hmem : readAttr m.encode r ∈ pre := by
      rw [← hread]
      exact List.mem_map_of_mem hr
    simpa [stunAttrGetType_beq] using hpre _ hmem
  unfold stunAttrGetFirstByType
  rw [stunAttrs_encode h, hattrs, offsets_append, List.find?_append, hnone, Option.none_or, offsets,
    List.find?_cons_of_pos]
  rw [stunAttrGetType_beq, hat, decide_eq_true_eq]

/-- A message with the cookie and a proper type passes the first check. -/
theorem stunIsCommandMessage_encode (h : m.Fits) (htype : m.type.toNat < 0x4000)
    (hcookie : m.cookie = stunMagicCookie) : stunIsCommandMessage m.encode = true := by
  have hfirst : numAt 1 m.encode 0 = m.type.toNat / 256 := by
    have hassoc : m.encode = [] ++ (be 1 (m.type.toNat / 256) ++ ([UInt8.ofNat m.type.toNat] ++
        (be 2 m.body.length ++ (be 4 m.cookie.toNat ++ (be 12 m.tid.toNat ++ m.body))))) := by
      simp [encode, be]
    rw [hassoc]
    exact numAt_append rfl (by omega)
  have hbits : ∀ x < 64, x &&& 0xC0 = 0 := by decide
  have hpad : m.body.length &&& 3 = m.body.length % 4 := Nat.and_two_pow_sub_one_eq_mod _ 2
  have hzero := hbits (m.type.toNat / 256) (by omega)
  unfold stunIsCommandMessage
  rw [numAt_length h, numAt_type, numAt_cookie, hfirst, hzero, hpad, m.body_mod, hcookie,
    length_encode]
  have hchan : stunValidChannel m.type.toNat = false := by
    rw [stunValidChannel, decide_eq_false_iff_not]
    omega
  simp [hchan, Nat.add_comm]

/-- The first word of a message is its type. -/
theorem typeWord_encode : typeWord m.encode = m.type := by
  rw [typeWord, numAt_type, BitVec.ofNat_toNat, BitVec.setWidth_eq]

/-- A message has a first word. -/
theorem two_le_length_encode : ¬ m.encode.length < 2 := by
  rw [length_encode, stunHeaderLength]
  omega

/-- A message with a proper type is no channel data. -/
theorem isChannelMsg_encode (htype : m.type.toNat < 0x4000) : isChannelMsg m.encode = false := by
  have hchan : stunValidChannel m.type.toNat = false := by
    rw [stunValidChannel, decide_eq_false_iff_not]
    omega
  rw [isChannelMsg, numAt_type, hchan, Bool.and_false]

end Message

/-! ### Building -/

/-- One attribute added; a refusal leaves the message as it was. -/
def addOrKeep (buf : List UInt8) (a : Attribute) : List UInt8 :=
  (stunAttrAdd buf a.type.toNat a.value).getD buf

/-- The attributes there is room for in a message of the size. -/
def accepted (size : Nat) : List Attribute → List Attribute
  | [] => []
  | a :: as =>
    if size + (4 + round4 a.value.length) < maxStunMessageSize then
      a :: accepted (size + (4 + round4 a.value.length)) as
    else accepted size as

/-- Nothing is accepted that was not offered. -/
theorem accepted_subset (size : Nat) (as : List Attribute) : accepted size as ⊆ as := by
  induction as generalizing size with
  | nil => exact List.Subset.refl _
  | cons a as ih =>
    rw [accepted]
    split_ifs
    · exact List.cons_subset_cons a (ih _)
    · exact List.subset_cons_of_subset a (ih _)

/-- Attributes added one after the other to a message. -/
theorem foldl_addOrKeep {m : Message} (h : m.Fits) (as : List Attribute) :
    as.foldl addOrKeep m.encode =
      (⟨m.type, m.cookie, m.tid, m.attrs ++ accepted m.encode.length as⟩ : Message).encode ∧
    (⟨m.type, m.cookie, m.tid, m.attrs ++ accepted m.encode.length as⟩ : Message).Fits := by
  induction as generalizing m with
  | nil =>
    rw [accepted, List.append_nil]
    exact ⟨rfl, h⟩
  | cons a as ih =>
    have hlen : (m.add a).encode.length = m.encode.length + (4 + round4 a.value.length) := by
      rw [Message.length_encode, Message.length_encode, Message.body_add, List.length_append,
        Attribute.length_encode, Nat.add_assoc]
    rw [List.foldl_cons, addOrKeep, Message.stunAttrAdd_encode h, hlen, accepted]
    by_cases hfit : m.encode.length + (4 + round4 a.value.length) < maxStunMessageSize
    · have hadd : (m.add a).Fits := by
        rw [Message.Fits, hlen]
        exact hfit
      have hrest := ih hadd
      rw [hlen] at hrest
      rw [if_pos hfit, if_pos hfit, Option.getD_some]
      simpa [Message.add] using hrest
    · rw [if_neg hfit, if_neg hfit, Option.getD_none]
      exact ih h

/-! ### Types -/

/-- The bits of the class and those of the method have places of their own. -/
theorem make_eq (c : MsgClass) (method : BitVec 16) :
    c.make method = stunMakeType method ||| c.bits := by
  have hmask : stunMakeType method &&& 0xFEEF = stunMakeType method := by
    ext i hi
    simp only [stunMakeType]
    interval_cases i <;> simp
  cases c with
  | request =>
    rw [MsgClass.make, stunMakeRequest, hmask]
    exact (BitVec.or_zero).symm
  | indication => rw [MsgClass.make, stunMakeIndication, hmask, MsgClass.bits]
  | successResponse => rw [MsgClass.make, stunMakeSuccessResponse, hmask, MsgClass.bits]
  | errorResponse => rfl

/-- A mask that leaves out the class sees the method only. -/
theorem make_and {c : MsgClass} {mask : BitVec 16} (method : BitVec 16)
    (h : c.bits &&& mask = 0#16) : c.make method &&& mask = stunMakeType method &&& mask := by
  rw [make_eq, BitVec.and_or_distrib_right, h, BitVec.or_zero]

/-- The method is taken apart from the class. -/
theorem method_make (c : MsgClass) (method : BitVec 16) :
    let tt : BitVec 16 := c.make method &&& 0x3FFF
    (tt &&& 0x000F#16) ||| ((tt &&& 0x00E0) >>> 1) ||| ((tt &&& 0x0E00) >>> 2) |||
      ((tt &&& 0x3000) >>> 2) = method &&& 0x0FFF := by
  have hmask (mask : BitVec 16) (hin : 0x3FFF &&& mask = mask) (hout : c.bits &&& mask = 0#16) :
      c.make method &&& 0x3FFF &&& mask = stunMakeType method &&& mask := by
    rw [BitVec.and_assoc, hin, make_and method hout]
  have hbits : c.bits &&& 0x000F#16 = 0 ∧ c.bits &&& 0x00E0 = 0 ∧ c.bits &&& 0x0E00 = 0 ∧
      c.bits &&& 0x3000 = 0 := by
    cases c <;> decide
  simp only
  rw [hmask _ (by decide) hbits.1, hmask _ (by decide) hbits.2.1, hmask _ (by decide) hbits.2.2.1,
    hmask _ (by decide) hbits.2.2.2]
  ext i hi
  simp only [stunMakeType]
  interval_cases i <;> simp

/-- The class is taken apart from the method. -/
theorem class_make (c : MsgClass) (method : BitVec 16) :
    c.make method &&& 0x3FFF &&& 0x3FFF &&& 0x0110 = c.bits := by
  have htype : stunMakeType method &&& 0x0110 = 0#16 := by
    ext i hi
    simp only [stunMakeType]
    interval_cases i <;> simp
  have hbits : c.bits &&& 0x0110 = c.bits := by
    cases c <;> decide
  rw [make_eq, BitVec.and_assoc, BitVec.and_assoc]
  change (stunMakeType method ||| c.bits) &&& 0x0110 = c.bits
  rw [BitVec.and_or_distrib_right, htype, hbits, BitVec.zero_or]

theorem bits_inj {c c' : MsgClass} (h : c.bits = c'.bits) : c = c' := by
  cases c <;> cases c' <;> first | rfl | exact absurd h (by decide)

/-- A masked type leaves the channel numbers alone. -/
theorem toNat_masked_lt (x : BitVec 16) : (x &&& 0x3FFF).toNat < 0x4000 := by
  rw [BitVec.toNat_and]
  exact Nat.and_lt_two_pow _ (n := 14) (by decide)

/-- A message of a method and a class. -/
def Message.new (c : MsgClass) (method : BitVec 16) (tid : BitVec 96) (attrs : List Attribute) :
    Message :=
  ⟨c.make method &&& 0x3FFF, stunMagicCookie, tid, attrs⟩

/-- The method of a message is that it was made with. -/
theorem Message.stunGetMethod_new (c : MsgClass) (method : BitVec 16) (tid : BitVec 96)
    (attrs : List Attribute) :
    stunGetMethod (Message.new c method tid attrs).encode = method &&& 0x0FFF := by
  rw [stunGetMethod, if_neg two_le_length_encode, typeWord_encode]
  exact method_make c method

/-- The class of a message is that it was made with. -/
theorem Message.stunIsClass_new (c c' : MsgClass) (method : BitVec 16) (tid : BitVec 96)
    (attrs : List Attribute) :
    stunIsClass c' (Message.new c method tid attrs).encode = true ↔ c' = c := by
  rw [stunIsClass, isChannelMsg_encode (toNat_masked_lt _), stunGetMsgType,
    if_neg two_le_length_encode, typeWord_encode, new, class_make, Bool.not_false, Bool.true_and,
    beq_iff_eq]
  exact ⟨fun h => (bits_inj h).symm, fun h => by rw [h]⟩

/-- A message just begun, with attributes added one after the other. -/
theorem foldl_stunInitCommand (c : MsgClass) (method : BitVec 16) (tid : BitVec 96)
    (as : List Attribute) :
    as.foldl addOrKeep (stunInitCommand (c.make method) tid) =
      (Message.new c method tid (accepted stunHeaderLength as)).encode ∧
    (Message.new c method tid (accepted stunHeaderLength as)).Fits := by
  have hinit : stunInitCommand (c.make method) tid = (Message.new c method tid []).encode := by
    simp [stunInitCommand, Message.new, Message.encode, Message.body]
  have hsize : (Message.new c method tid []).encode.length = stunHeaderLength := by
    simp [Message.new, Message.body]
  have hfits : (Message.new c method tid []).Fits := by
    rw [Message.Fits, hsize]
    decide
  have hbuilt := foldl_addOrKeep hfits as
  rw [hsize] at hbuilt
  rw [hinit]
  exact hbuilt

/-- **What is put into a message is what is read from it.** A message of any method and class, with
attributes added one after the other, is a message of that method, that class and no other; it holds
the attributes there was room for, in order and unchanged, and its transaction id. -/
theorem build_read (c : MsgClass) (method : BitVec 16) (tid : BitVec 96) (as : List Attribute) :
    stunIsCommandMessage (as.foldl addOrKeep (stunInitCommand (c.make method) tid)) = true ∧
    stunGetMethod (as.foldl addOrKeep (stunInitCommand (c.make method) tid)) = method &&& 0x0FFF ∧
    (∀ c', stunIsClass c' (as.foldl addOrKeep (stunInitCommand (c.make method) tid)) = true ↔
      c' = c) ∧
    stunTidFromMessage (as.foldl addOrKeep (stunInitCommand (c.make method) tid)) = tid ∧
    stunAttributes (as.foldl addOrKeep (stunInitCommand (c.make method) tid)) =
      accepted stunHeaderLength as := by
  obtain ⟨hbuilt, hfits⟩ := foldl_stunInitCommand c method tid as
  rw [hbuilt]
  refine ⟨?_, ?_, ?_, ?_, ?_⟩
  · exact Message.stunIsCommandMessage_encode hfits (toNat_masked_lt _) rfl
  · exact Message.stunGetMethod_new c method tid _
  · exact fun c' => Message.stunIsClass_new c c' method tid _
  · exact Message.stunTidFromMessage_encode
  · exact Message.stunAttributes_encode hfits

/-! ### Buffers nobody built -/

/-- The attributes the walk visits from one on lie one behind the other, inside the buffer. -/
theorem stunAttrsFrom_inside {buf : List UInt8} {attr : Nat}
    (hfit : attr + 4 + round4 (stunAttrGetLen buf attr) ≤ buf.length) :
    (∀ r ∈ stunAttrsFrom buf attr, attr ≤ r ∧
      r + 4 + round4 (stunAttrGetLen buf r) ≤ buf.length) ∧
    (stunAttrsFrom buf attr).IsChain
      fun r r' => r' = r + 4 + round4 (stunAttrGetLen buf r) := by
  induction hn : buf.length - attr using Nat.strong_induction_on generalizing attr with
  | _ n ih =>
    cases hnext : stunAttrGetNext buf attr with
    | none =>
      rw [stunAttrsFrom_none hnext]
      refine ⟨fun r hr => ?_, .singleton _⟩
      obtain rfl := List.mem_singleton.mp hr
      exact ⟨le_rfl, hfit⟩
    | some next =>
      obtain ⟨hplace, hend⟩ := stunAttrGetNext_some hnext
      obtain ⟨hin, hchain⟩ := ih (buf.length - next) (by omega) hend rfl
      rw [stunAttrsFrom_some hnext]
      constructor
      · intro r hr
        obtain rfl | hr := List.mem_cons.mp hr
        · exact ⟨le_rfl, hfit⟩
        · have := hin r hr
          omega
      · obtain ⟨rest, hrest⟩ : ∃ rest, stunAttrsFrom buf next = next :: rest := by
          rw [stunAttrsFrom]
          exact ⟨_, rfl⟩
        rw [hrest] at hchain ⊢
        exact List.isChain_cons_cons.mpr ⟨hplace, hchain⟩

/-- The first attribute starts behind the header and ends in the buffer. -/
theorem stunAttrGetFirst_some {buf : List UInt8} {attr : Nat}
    (h : stunAttrGetFirst buf = some attr) :
    attr = stunHeaderLength ∧ attr + 4 + round4 (stunAttrGetLen buf attr) ≤ buf.length := by
  unfold stunAttrGetFirst at h
  cases hlen : stunGetCommandMessageLen buf with
  | none =>
    rw [hlen] at h
    cases h
  | some n =>
    have hle := stunGetCommandMessageLen_le hlen
    rw [hlen] at h
    simp only [stunAttrCheckValid] at h
    split_ifs at h with hin hfit
    obtain rfl := Option.some.inj h
    omega

/-- Every attribute of the walk ends in the buffer, and the next one starts there. -/
theorem stunAttrs_inside (buf : List UInt8) :
    (∀ r ∈ stunAttrs buf, stunHeaderLength ≤ r ∧
      r + 4 + round4 (stunAttrGetLen buf r) ≤ buf.length) ∧
    (stunAttrs buf).IsChain fun r r' => r' = r + 4 + round4 (stunAttrGetLen buf r) := by
  unfold stunAttrs
  cases hfirst : stunAttrGetFirst buf with
  | none => exact ⟨fun r hr => absurd hr List.not_mem_nil, .nil⟩
  | some attr =>
    obtain ⟨rfl, hfit⟩ := stunAttrGetFirst_some hfirst
    exact stunAttrsFrom_inside hfit

/-- **No read outside.** Over any buffer at all, the attributes the walk visits begin behind the
header, follow one right behind the other and end inside the buffer, and every value is as long as
its attribute says. -/
theorem walk_inside (buf : List UInt8) :
    (∀ r ∈ stunAttrs buf, stunHeaderLength ≤ r ∧
      r + 4 + round4 (stunAttrGetLen buf r) ≤ buf.length ∧
      (readAttr buf r).value.length = stunAttrGetLen buf r) ∧
    (stunAttrs buf).IsChain fun r r' => r' = r + 4 + round4 (stunAttrGetLen buf r) := by
  obtain ⟨hin, hchain⟩ := stunAttrs_inside buf
  refine ⟨fun r hr => ?_, hchain⟩
  obtain ⟨hle, hend⟩ := hin r hr
  refine ⟨hle, hend, ?_⟩
  have := le_round4 (stunAttrGetLen buf r)
  simp only [readAttr, List.length_take, List.length_drop]
  omega

end WebrtcCaller.Turn
