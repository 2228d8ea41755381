import Mathlib
import WebrtcCaller.Core.Run
import WebrtcCaller.Turn.Message

/-!
# Messages in a stream

Over TCP the messages of a session come as one stream of bytes, in segments that know nothing of
their boundaries. The relay keeps what it has not used yet and cuts from its front one message after
the other: command messages, channel data padded to a multiple of four, and the requests of an
embedded HTTP service. However the stream is cut into segments, the messages come out whole, once
and in order.
-/

namespace WebrtcCaller.Turn

/-! ### HTTP requests -/

/-- `tolower`, on bytes. -/
def toLower (c : UInt8) : UInt8 := if 65 ≤ c ∧ c ≤ 90 then c + 32 else c

/-- `sheadof`: the one text starts the other. -/
def sheadof : List UInt8 → List UInt8 → Bool → Bool
  | [], _, _ => true
  | _ :: _, [], _ => false
  | h :: head, f :: full, ignoreCase =>
    (h == f || (ignoreCase && toLower h == toLower f)) && sheadof head full ignoreCase

/-- The first place of the needle in the hay. -/
def findstr (hay needle : List UInt8) (ignoreCase : Bool) : Option Nat :=
  if hay = [] ∨ hay.length < needle.length then none
  else (List.range (hay.length - needle.length + 1)).find? fun i =>
    sheadof needle (hay.drop i) ignoreCase

/-- `isspace`, on bytes. -/
def isSpace (c : UInt8) : Bool := c == 32 || (9 ≤ c && c ≤ 13)

/-- `isdigit`, on bytes. -/
def isDigit (c : UInt8) : Bool := 48 ≤ c && c ≤ 57

/-- `strtoul` in base ten: blanks, a sign, digits. What does not fit is the largest value. -/
def strtoul (s : List UInt8) : Nat :=
  let s := s.dropWhile isSpace
  let (neg, s) := match s with
    | 45 :: s => (true, s)
    | 43 :: s => (false, s)
    | s => (false, s)
  let n := (s.takeWhile isDigit).foldl (fun acc c => acc * 10 + (c.toNat - 48)) 0
  if n ≥ 2 ^ 64 then 2 ^ 64 - 1 else if neg then (2 ^ 64 - n) % 2 ^ 64 else n

/-- The methods of requests that are answered. -/
def httpMethods : List (List UInt8) := [ascii "GET ", ascii "POST ", ascii "DELETE ", ascii "PUT "]

/-- One of the methods starts the text. -/
def startsHttp (s : List UInt8) : Bool := httpMethods.any fun m => m.isPrefixOf s

/-- The length of the HTTP request at the start of the buffer, its body included; zero if there is
none. -/
def isHttp (s : List UInt8) : Nat :=
  if 12 ≤ s.length ∧ startsHttp s then
    match findstr (s.drop 4) (ascii " HTTP/") false with
    | none => 0
    | some i =>
      let sp := 4 + i + 6
      if sp + 4 ≤ s.length then
        match findstr (s.drop sp) (ascii "\r\n\r\n") false with
        | none => 0
        | some j =>
          let retLen := sp + j + 4
          match findstr (s.take (sp + j)) (ascii "content-length: ") true with
          | none => retLen
          | some cl =>
            let clen := strtoul (s.drop (cl + 16))
            if 0 < clen ∧ clen < 0x0FFFFFFF then retLen + clen else retLen
      else 0
  else 0

/-! ### Message lengths -/

/-- The command message at the start of the buffer; its length is a number of sixteen bits. -/
def commandLen (buf : List UInt8) : Option Nat :=
  let len := (numAt 2 buf 2 + stunHeaderLength) % 2 ^ 16
  if stunHeaderLength ≤ buf.length ∧ stunValidChannel (numAt 2 buf 0) = false ∧
      numAt 1 buf 0 &&& 0xC0 = 0 ∧ numAt 4 buf 4 = stunMagicCookie.toNat ∧
      numAt 2 buf 2 &&& 3 = 0 ∧ len ≤ buf.length then
    some len
  else none

/-- The HTTP request at the start of the buffer, when all of it is there. -/
def httpLen (buf : List UInt8) : Option Nat :=
  if 0 < isHttp buf ∧ isHttp buf ≤ buf.length then some (isHttp buf) else none

/-- The channel data at the start of the buffer, with its length padded and as it is. -/
def channelLen (buf : List UInt8) (padding : Bool) : Option (Nat × Nat) :=
  let appLen := (4 + numAt 2 buf 2) % 2 ^ 16
  let bret := if padding ∧ appLen &&& 3 ≠ 0 then ((appLen >>> 2 + 1) <<< 2) % 2 ^ 16 else appLen
  if 4 ≤ buf.length ∧ stunValidChannel (numAt 2 buf 0) = true ∧ bret ≤ buf.length then
    some (bret, appLen)
  else none

/-- `stun_get_message_len_str`: how many bytes to take from the front, and how many of them are the
message. -/
def stunGetMessageLen (buf : List UInt8) (padding : Bool) : Option (Nat × Nat) :=
  if buf = [] then none
  else
    match commandLen buf with
    | some len => some (len, len)
    | none =>
      match httpLen buf with
      | some len => some (len, len)
      | none => channelLen buf padding

/-- `STUN_BUFFER_SIZE`. -/
def stunBufferSize : Nat := maxStunMessageSize

/-- One call of `socket_input_worker` on a stream socket: the message it hands on, and what stays in
the buffer. The bandwidth limit of the session is left out. -/
def socketInputWorker (inbuf : List UInt8) : Option (List UInt8 × List UInt8) :=
  let buf := inbuf.take stunBufferSize
  match stunGetMessageLen buf true with
  | none => none
  | some (mlen, appMsgLen) =>
    if 0 < mlen ∧ mlen ≤ buf.length then
      some (buf.take (if appMsgLen ≠ 0 then appMsgLen else mlen), inbuf.drop mlen)
    else none

/-- The loop of `socket_input_handler_bev`. -/
def socketInputLoop : Nat → List UInt8 → List (List UInt8) × List UInt8
  | 0, inbuf => ([], inbuf)
  | cycles + 1, inbuf =>
    match socketInputWorker inbuf with
    | none => ([], inbuf)
    | some (message, inbuf) =>
      let (messages, inbuf) := socketInputLoop cycles inbuf
      (message :: messages, inbuf)

/-- At most so many messages are handed on at one event. -/
def maxCycles : Nat := 129

/-- The socket between two events. -/
structure StreamSocket where
  inbuf : List UInt8
  messages : List (List UInt8)
  handed : Nat

/-- `socket_input_handler_bev`, when a segment has come in. -/
def StreamSocket.input (s : StreamSocket) (segment : List UInt8) : StreamSocket :=
  let (messages, inbuf) := socketInputLoop maxCycles (s.inbuf ++ segment)
  ⟨inbuf, s.messages ++ messages, messages.length⟩

/-! ### Frames -/

/-- What a client sends: a command message, or data for a channel with its padding. -/
inductive Frame
  | command (msg : List UInt8)
  | channel (chnum : Nat) (data padding : List UInt8)

/-- The message the server is to see. -/
def Frame.message : Frame → List UInt8
  | .command msg => msg
  | .channel chnum data _ => be 2 chnum ++ (be 2 data.length ++ data)

/-- The bytes in the stream. -/
def Frame.wire : Frame → List UInt8
  | .command msg => msg
  | .channel chnum data padding => (Frame.channel chnum data padding).message ++ padding

/-- Frames the server can take: they fit its buffer, and channel data does not read as the start of
an HTTP request. -/
def Frame.Valid (f : Frame) : Prop :=
  f.wire.length ≤ stunBufferSize ∧
  match f with
  | .command msg => stunIsCommandMessage msg = true
  | .channel chnum data padding => stunValidChannel chnum = true ∧
      (Frame.channel chnum data padding).wire.length = round4 (4 + data.length) ∧
      startsHttp (Frame.channel chnum data padding).message = false

/-- Only the first bytes of a buffer decide what is read from it. -/
theorem numAt_leading {p l : List UInt8} (h : p <+: l) {n off : Nat} (hlen : off + n ≤ p.length) :
    numAt n p off = numAt n l off := by
  obtain ⟨r, rfl⟩ := h
  rw [numAt, numAt, List.drop_append_of_le_length (by omega), List.take_append_of_le_length]
  rw [List.length_drop]
  omega

/-- Without a method at its start a text is no request. -/
theorem isHttp_eq_zero {s : List UInt8} (h : startsHttp s = false) : isHttp s = 0 := by
  simp [isHttp, h]

theorem httpLen_eq_none {s : List UInt8} (h : startsHttp s = false) : httpLen s = none := by
  simp [httpLen, isHttp_eq_zero h]

/-- The beginning of what starts no HTTP request does not start one. -/
theorem startsHttp_of_leading {s s' : List UInt8} (hle : s <+: s') (h : startsHttp s' = false) :
    startsHttp s = false := by
  rw [Bool.eq_false_iff] at h ⊢
  intro hs
  obtain ⟨m, hm, hp⟩ := List.any_eq_true.mp hs
  refine h (List.any_eq_true.mpr ⟨m, hm, List.isPrefixOf_iff_prefix.mpr ?_⟩)
  exact (List.isPrefixOf_iff_prefix.mp hp).trans hle

/-- A method of HTTP has a letter or a digit in its first byte and in its third. -/
theorem startsHttp_bytes {s : List UInt8} (h : startsHttp s = true) :
    (∃ b, s[0]? = some b ∧ 64 ≤ b) ∧ ∃ b, s[2]? = some b ∧ b ≠ 0 := by
  obtain ⟨m, hm, hp⟩ := List.any_eq_true.mp h
  obtain ⟨r, rfl⟩ := List.isPrefixOf_iff_prefix.mp hp
  simp only [httpMethods, List.mem_cons, List.not_mem_nil, or_false] at hm
  obtain rfl | rfl | rfl | rfl := hm <;>
    exact ⟨⟨_, rfl, by decide⟩, _, rfl, by decide⟩

/-- The first two bits of a command message are clear, those of a method of HTTP are not. -/
theorem startsHttp_of_bits {s : List UInt8} (h : numAt 1 s 0 &&& 0xC0 = 0) :
    startsHttp s = false := by
  rw [Bool.eq_false_iff]
  intro hs
  obtain ⟨⟨b, hb, hlow⟩, -⟩ := startsHttp_bytes hs
  have hbits : ∀ x < 256, 64 ≤ x → x &&& 0xC0 ≠ 0 := by decide +kernel
  cases s with
  | nil => cases hb
  | cons b' s =>
    obtain rfl := Option.some.inj hb
    have hnum : numAt 1 (b' :: s) 0 = b'.toNat := by simp [numAt, ofBe]
    rw [hnum] at h
    exact hbits _ b'.toNat_lt hlow h

/-- What a command message says of itself. -/
theorem stunIsCommandMessage_iff {msg : List UInt8} : stunIsCommandMessage msg = true ↔
    stunHeaderLength ≤ msg.length ∧ stunValidChannel (numAt 2 msg 0) = false ∧
      numAt 1 msg 0 &&& 0xC0 = 0 ∧ numAt 4 msg 4 = stunMagicCookie.toNat ∧
      numAt 2 msg 2 &&& 3 = 0 ∧ numAt 2 msg 2 + stunHeaderLength = msg.length := by
  simp [stunIsCommandMessage, and_assoc]

/-- A buffer that begins with a command message, or with a part of one. -/
theorem stunGetMessageLen_command {msg r b : List UInt8} (hmsg : stunIsCommandMessage msg = true)
    (hsize : msg.length ≤ stunBufferSize) (hb : b <+: msg ++ r) :
    stunGetMessageLen b true =
      if msg.length ≤ b.length then some (msg.length, msg.length) else none := by
  obtain ⟨hhead, hchan, hbits, hcookie, hpad, hlen⟩ := stunIsCommandMessage_iff.mp hmsg
  have hm : msg <+: msg ++ r := List.prefix_append msg r
  unfold stunHeaderLength at hhead hlen
  unfold stunBufferSize maxStunMessageSize at hsize
  have hread : ∀ n off, off + n ≤ 20 → off + n ≤ b.length → numAt n b off = numAt n msg off :=
    fun n off h20 hoff => (numAt_leading hb hoff).trans (numAt_leading hm (by omega)).symm
  by_cases hempty : b = []
  · rw [hempty, stunGetMessageLen, if_pos rfl, List.length_nil, if_neg (by omega)]
  have hone : 1 ≤ b.length := List.length_pos_of_ne_nil hempty
  have hhttp : httpLen b = none := by
    apply httpLen_eq_none
    apply startsHttp_of_bits
    rw [hread 1 0 (by omega) (by omega), hbits]
  have hchannel : channelLen b true = none := by
    unfold channelLen
    rw [if_neg]
    rintro ⟨h4, hvalid, -⟩
    rw [hread 2 0 (by omega) (by omega), hchan] at hvalid
    cases hvalid
  have hcommand : commandLen b = if msg.length ≤ b.length then some msg.length else none := by
    by_cases hshort : b.length < 20
    · rw [commandLen, if_neg (by unfold stunHeaderLength; omega), if_neg (by omega)]
    · have hfield : (numAt 2 b 2 + stunHeaderLength) % 2 ^ 16 = msg.length := by
        rw [hread 2 2 (by omega) (by omega), stunHeaderLength, hlen]
        omega
      unfold commandLen
      rw [hfield, hread 2 0 (by omega) (by omega), hread 1 0 (by omega) (by omega),
        hread 4 4 (by omega) (by omega), hread 2 2 (by omega) (by omega)]
      have hlong : stunHeaderLength ≤ b.length := Nat.not_lt.mp hshort
      simp only [hlong, hchan, hbits, hcookie, hpad, true_and]
  unfold stunGetMessageLen
  rw [if_neg hempty, hcommand, hhttp, hchannel]
  split_ifs <;> rfl

/-- Channel data that does not start an HTTP request does not start one with what follows it. -/
theorem startsHttp_message {chnum : Nat} {data padding r : List UInt8}
    (h : startsHttp (Frame.channel chnum data padding).message = false) :
    startsHttp ((Frame.channel chnum data padding).message ++ r) = false := by
  rw [Bool.eq_false_iff] at h ⊢
  intro hs
  obtain ⟨-, b, hb, hne⟩ := startsHttp_bytes hs
  obtain ⟨m, hm, hp⟩ := List.any_eq_true.mp hs
  have hp := List.isPrefixOf_iff_prefix.mp hp
  by_cases hlen : m.length ≤ (Frame.channel chnum data padding).message.length
  · refine h (List.any_eq_true.mpr ⟨m, hm, List.isPrefixOf_iff_prefix.mpr ?_⟩)
    exact List.prefix_of_prefix_length_le hp (List.prefix_append _ r) hlen
  · -- the data is so short that the third byte, the high one of its length, is zero
    have hshort : m.length ≤ 7 := by
      simp only [httpMethods, List.mem_cons, List.not_mem_nil, or_false] at hm
      obtain rfl | rfl | rfl | rfl := hm <;> decide
    have hdata : data.length / 256 = 0 := by
      simp [Frame.message] at hlen
      omega
    apply hne
    simpa [Frame.message, be, hdata] using hb.symm

/-- The padded length, in sixteen bits. -/
theorem padded_eq_round4 {n : Nat} (h : round4 n < 2 ^ 16) :
    (if n &&& 3 ≠ 0 then ((n >>> 2 + 1) <<< 2) % 2 ^ 16 else n) = round4 n := by
  have hand : n &&& 3 = n % 4 := Nat.and_two_pow_sub_one_eq_mod _ 2
  unfold round4 at h ⊢
  rw [hand, Nat.shiftRight_eq_div_pow, Nat.shiftLeft_eq]
  split_ifs at h ⊢ <;> omega

/-- The first four bytes of channel data. -/
theorem numAt_channel {chnum : Nat} {data padding r b : List UInt8} (hnum : chnum < 256 ^ 2)
    (hdata : data.length < 256 ^ 2) (hb : b <+: (Frame.channel chnum data padding).wire ++ r)
    (h4 : 4 ≤ b.length) : numAt 2 b 0 = chnum ∧ numAt 2 b 2 = data.length := by
  have hsplit : (Frame.channel chnum data padding).wire =
      be 2 chnum ++ (be 2 data.length ++ (data ++ padding)) := by
    simp [Frame.wire, Frame.message]
  rw [numAt_leading hb (by omega), numAt_leading hb (by omega), hsplit, List.append_assoc]
  refine ⟨numAt_append (l := []) rfl hnum, ?_⟩
  rw [List.append_assoc]
  exact numAt_append (length_be 2 _) hdata

/-- A buffer that begins with channel data, or with a part of it. -/
theorem stunGetMessageLen_channel {chnum : Nat} {data padding r b : List UInt8}
    (hvalid : (Frame.channel chnum data padding).Valid)
    (hb : b <+: (Frame.channel chnum data padding).wire ++ r) :
    stunGetMessageLen b true =
      if (Frame.channel chnum data padding).wire.length ≤ b.length then
        some ((Frame.channel chnum data padding).wire.length,
          (Frame.channel chnum data padding).message.length)
      else none := by
  obtain ⟨hsize, hchan, hround, hhttp⟩ := hvalid
  have hnum : chnum < 256 ^ 2 := by
    rw [stunValidChannel, decide_eq_true_eq] at hchan
    omega
  have hle := le_round4 (4 + data.length)
  have hmlen : (Frame.channel chnum data padding).message.length = 4 + data.length := by
    simp [Frame.message]
    omega
  unfold stunBufferSize maxStunMessageSize at hsize
  have hstart : startsHttp ((Frame.channel chnum data padding).wire ++ r) = false := by
    rw [Frame.wire, List.append_assoc]
    exact startsHttp_message hhttp
  have hbhttp : httpLen b = none := httpLen_eq_none (startsHttp_of_leading hb hstart)
  have hword : 4 ≤ b.length → numAt 2 b 0 = chnum ∧ numAt 2 b 2 = data.length :=
    numAt_channel hnum (by omega) hb
  have hcommand : commandLen b = none := by
    rw [commandLen, if_neg]
    rintro ⟨h20, hnot, -⟩
    unfold stunHeaderLength at h20
    rw [(hword (by omega)).1, hchan] at hnot
    cases hnot
  have hchannel : channelLen b true =
      if (Frame.channel chnum data padding).wire.length ≤ b.length then
        some ((Frame.channel chnum data padding).wire.length,
          (Frame.channel chnum data padding).message.length) else none := by
    by_cases hshort : b.length < 4
    · rw [channelLen, if_neg (by omega), if_neg (by omega)]
    · obtain ⟨hn, hl⟩ := hword (Nat.not_lt.mp hshort)
      have happ : (4 + data.length) % 2 ^ 16 = 4 + data.length := Nat.mod_eq_of_lt (by omega)
      simp only [channelLen, hn, hl, happ, true_and, hchan, hmlen, hround,
        padded_eq_round4 (show round4 (4 + data.length) < 2 ^ 16 by omega)]
      simp only [Nat.not_lt.mp hshort, true_and]
  by_cases hempty : b = []
  · rw [hempty, stunGetMessageLen, if_pos rfl, List.length_nil, if_neg (by omega)]
  unfold stunGetMessageLen
  rw [if_neg hempty, hcommand, hbhttp, hchannel]

/-- From a buffer that starts with a frame the frame is taken, once all of it is there. -/
theorem stunGetMessageLen_frame {f : Frame} (hf : f.Valid) {r b : List UInt8}
    (hb : b <+: f.wire ++ r) :
    stunGetMessageLen b true =
      if f.wire.length ≤ b.length then some (f.wire.length, f.message.length) else none := by
  cases f with
  | command msg => exact stunGetMessageLen_command hf.2 hf.1 hb
  | channel chnum data padding => exact stunGetMessageLen_channel hf hb

/-- A frame begins with its message, which is not empty. -/
theorem Frame.Valid.message_leads {f : Frame} (hf : f.Valid) :
    f.message <+: f.wire ∧ 0 < f.message.length := by
  cases f with
  | command msg =>
    refine ⟨List.prefix_rfl, ?_⟩
    have hhead := (stunIsCommandMessage_iff.mp hf.2).1
    unfold stunHeaderLength at hhead
    show 0 < msg.length
    omega
  | channel chnum data padding =>
    exact ⟨List.prefix_append _ _, by simp [Frame.message]⟩

/-! ### Segments -/

/-- The worker hands on the message of the frame at the front once it is there in full. -/
theorem socketInputWorker_frame {f : Frame} (hf : f.Valid) {r inbuf : List UInt8}
    (hin : inbuf <+: f.wire ++ r) :
    socketInputWorker inbuf =
      if f.wire.length ≤ inbuf.length then some (f.message, inbuf.drop f.wire.length)
      else none := by
  have hcopy : inbuf.take stunBufferSize <+: f.wire ++ r := (List.take_prefix _ _).trans hin
  obtain ⟨hstart, hpos⟩ := hf.message_leads
  have hle := hstart.length_le
  have hsize := hf.1
  unfold socketInputWorker
  simp only [stunGetMessageLen_frame hf hcopy]
  by_cases hfull : f.wire.length ≤ inbuf.length
  · have hcopied : f.wire.length ≤ (inbuf.take stunBufferSize).length := by
      rw [List.length_take]
      exact le_min hsize hfull
    have hwire : f.wire <+: inbuf.take stunBufferSize :=
      List.prefix_of_prefix_length_le (List.prefix_append _ r) hcopy hcopied
    have hmessage := List.prefix_iff_eq_take.mp (hstart.trans hwire)
    rw [if_pos hcopied, if_pos hfull]
    simp only
    rw [if_pos ⟨by omega, hcopied⟩, if_pos (by omega), ← hmessage]
  · have hcopied : ¬ f.wire.length ≤ (inbuf.take stunBufferSize).length := by
      rw [List.length_take]
      omega
    rw [if_neg hcopied, if_neg hfull]

/-- The loop hands on frames from the front, until it has gone round often enough or the next one is
not there in full. -/
theorem socketInputLoop_frames {fs : List Frame} (hfs : ∀ f ∈ fs, f.Valid) (cycles : Nat)
    {inbuf : List UInt8} (hin : inbuf <+: fs.flatMap Frame.wire) :
    ∃ k, (socketInputLoop cycles inbuf).1 = (fs.take k).map Frame.message ∧
      k ≤ cycles ∧ k ≤ fs.length ∧
      inbuf = (fs.take k).flatMap Frame.wire ++ (socketInputLoop cycles inbuf).2 ∧
      (k = cycles ∨ ∀ f, fs[k]? = some f →
        (socketInputLoop cycles inbuf).2.length < f.wire.length) := by
  induction cycles generalizing fs inbuf with
  | zero => exact ⟨0, rfl, le_rfl, Nat.zero_le _, by simp [socketInputLoop], .inl rfl⟩
  | succ cycles ih =>
    cases fs with
    | nil =>
      obtain rfl := List.prefix_nil.mp hin
      exact ⟨0, rfl, Nat.zero_le _, le_rfl, rfl, .inr fun f hf => by cases hf⟩
    | cons f fs =>
      have hf := hfs f List.mem_cons_self
      rw [List.flatMap_cons] at hin
      have hworker := socketInputWorker_frame hf hin
      by_cases hfull : f.wire.length ≤ inbuf.length
      · have hwire := List.prefix_of_prefix_length_le (List.prefix_append _ _) hin hfull
        obtain ⟨rest, rfl⟩ := hwire
        rw [if_pos hfull, List.drop_left' rfl] at hworker
        obtain ⟨k, hmsgs, hk, hlen, hrest, hstop⟩ := ih
          (fun g hg => hfs g (List.mem_cons_of_mem f hg)) ((List.prefix_append_right_inj _).mp hin)
        refine ⟨k + 1, ?_, Nat.succ_le_succ hk, Nat.succ_le_succ hlen, ?_, ?_⟩
        · simp [socketInputLoop, hworker, hmsgs]
        · simp only [socketInputLoop, hworker, List.take_succ_cons, List.flatMap_cons,
            List.append_assoc]
          rw [← hrest]
        · simp only [socketInputLoop, hworker, List.getElem?_cons_succ]
          exact hstop.imp (congrArg (· + 1)) id
      · rw [if_neg hfull] at hworker
        refine ⟨0, ?_, Nat.zero_le _, Nat.zero_le _, ?_, .inr ?_⟩
        · simp [socketInputLoop, hworker]
        · simp [socketInputLoop, hworker]
        · intro g hg
          obtain rfl := Option.some.inj hg
          simp only [socketInputLoop, hworker]
          omega

/-- A socket that has taken in the first bytes of a stream of frames, and handed on the first `k` of
them. -/
structure Handed (fs : List Frame) (received : List UInt8) (k : Nat) (s : StreamSocket) : Prop where
  le : k ≤ fs.length
  messages : s.messages = (fs.take k).map Frame.message
  bytes : received = (fs.take k).flatMap Frame.wire ++ s.inbuf
  stopped : s.handed = maxCycles ∨ ∀ f, fs[k]? = some f → s.inbuf.length < f.wire.length

/-- One more segment. -/
theorem Handed.input {fs : List Frame} (hfs : ∀ f ∈ fs, f.Valid) {received segment : List UInt8}
    {k : Nat} {s : StreamSocket} (h : Handed fs received k s)
    (hseg : received ++ segment <+: fs.flatMap Frame.wire) :
    ∃ k', Handed fs (received ++ segment) k' (s.input segment) := by
  have hsplit : fs.flatMap Frame.wire =
      (fs.take k).flatMap Frame.wire ++ (fs.drop k).flatMap Frame.wire := by
    rw [← List.flatMap_append, List.take_append_drop]
  have hin : s.inbuf ++ segment <+: (fs.drop k).flatMap Frame.wire := by
    rw [h.bytes, List.append_assoc, hsplit] at hseg
    exact (List.prefix_append_right_inj _).mp hseg
  obtain ⟨j, hmsgs, hj, hlen, hrest, hstop⟩ := socketInputLoop_frames
    (fun f hf => hfs f (List.mem_of_mem_drop hf)) maxCycles hin
  have htake : fs.take (k + j) = fs.take k ++ (fs.drop k).take j := List.take_add
  have hinput : s.input segment = ⟨(socketInputLoop maxCycles (s.inbuf ++ segment)).2,
      s.messages ++ (socketInputLoop maxCycles (s.inbuf ++ segment)).1,
      (socketInputLoop maxCycles (s.inbuf ++ segment)).1.length⟩ := rfl
  have hle := h.le
  have hcount : ((fs.drop k).take j).length = j := List.length_take_of_le hlen
  rw [List.length_drop] at hlen
  rw [hinput, hmsgs]
  refine ⟨k + j, by omega, ?_, ?_, ?_⟩
  · rw [h.messages, htake, List.map_append]
  · rw [htake, List.flatMap_append, List.append_assoc, ← hrest, h.bytes, List.append_assoc]
  · refine hstop.imp (fun hj => ?_) fun hnext f hf => hnext f ?_
    · rw [List.length_map, hcount, hj]
    · rw [List.getElem?_drop]
      exact hf

end WebrtcCaller.Turn
