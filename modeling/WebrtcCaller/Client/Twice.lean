import WebrtcCaller.Client.Codec
import WebrtcCaller.Client.Negotiation

/-!
# A codec preferred twice

The sender of an offer prefers a codec in it and the receiver does so again. The second
pass reads the lines that the first one has joined, collects the same payload types and
finds them in front already. Only the blanks of the line can be in its way: a blank that
is doubled or at the end of the line may be lost with the field behind it, so the fields
are taken to be separated by single blanks.
-/

namespace WebrtcCaller

namespace Sdp

/-- Fields separated by single blanks, with none at the end. -/
def SingleSpaced (line : List Char) : Prop :=
  line.IsChain (fun c d => ¬(c = ' ' ∧ d = ' ')) ∧ line.getLast? ≠ some ' '

/-- Whether a line is single spaced can be computed. -/
instance (line : List Char) : Decidable (SingleSpaced line) :=
  inferInstanceAs (Decidable (_ ∧ _))

/-- The first field is empty only if the line is, or starts with a blank. -/
theorem head?_of_splitOn {line part : List Char} {parts : List (List Char)}
    (h : line.splitOn ' ' = part :: parts) (hpart : part = []) :
    line = [] ∨ line.head? = some ' ' := by
  cases line with
  | nil => exact Or.inl rfl
  | cons c cs =>
    refine Or.inr ?_
    rw [List.splitOn_cons_eq_if_modifyHead] at h
    split at h
    · rename_i hc
      simpa using hc
    · cases hs : cs.splitOn ' ' with
      | nil => simp [hs] at h
      | cons p ps =>
        rw [hs, List.modifyHead_cons, hpart] at h
        cases h

/-- The rest of a single-spaced line is single spaced. -/
theorem SingleSpaced.tail {c : Char} {cs : List Char} (h : SingleSpaced (c :: cs)) :
    SingleSpaced cs := by
  refine ⟨(List.isChain_cons.mp h.1).2, ?_⟩
  cases cs with
  | nil => simp
  | cons d cs => simpa using h.2

/-- Behind the first field of a single-spaced line there is no empty one. -/
theorem SingleSpaced.ne_nil_of_mem_tail {line part : List Char} (h : SingleSpaced line)
    (hpart : part ∈ (line.splitOn ' ').tail) : part ≠ [] := by
  induction line with
  | nil => simp at hpart
  | cons c cs ih =>
    cases hs : cs.splitOn ' ' with
    | nil => exact absurd hs (by simp)
    | cons p ps =>
      rw [hs] at ih
      rw [List.splitOn_cons_eq_if_modifyHead, hs] at hpart
      split at hpart
      · rename_i hc
        rcases List.mem_cons.mp hpart with rfl | hpart
        · -- a blank is followed by something else than a blank
          intro hnil
          have hc' : c = ' ' := by simpa using hc
          rcases head?_of_splitOn hs hnil with rfl | hblank
          · exact h.2 (by simp [hc'])
          · exact (List.isChain_cons.mp h.1).1 ' ' hblank ⟨hc', rfl⟩
        · exact ih h.tail hpart
      · exact ih h.tail hpart

/-- A single-spaced video line has no empty field. -/
theorem SingleSpaced.ne_nil_of_mem {line part : List Char} (h : SingleSpaced line)
    (hm : "m=video ".toList.isPrefixOf line) (hpart : part ∈ line.splitOn ' ') : part ≠ [] := by
  obtain ⟨p, ps, hs⟩ := isPrefixOf_media.mp hm
  have htail := @h.ne_nil_of_mem_tail line part
  rw [hs] at hpart htail
  rcases List.mem_cons.mp hpart with rfl | hpart
  · decide
  · exact htail hpart

/-- `split` drops nothing where no piece is empty. -/
theorem javaSplit_eq_self {pieces : List (List Char)} (h : ∀ piece ∈ pieces, piece ≠ []) :
    javaSplit pieces = pieces := by
  unfold javaSplit
  split
  · rfl
  · rw [List.rdropWhile_eq_self_iff]
    intro hne
    have hlast := h _ (List.getLast_mem hne)
    simpa using hlast

/-- A line that describes video maps no payload type. -/
theorem rtpmapPayload_of_media {line : List Char} (hm : "m=video ".toList.isPrefixOf line)
    (codec : List Char) : rtpmapPayload codec line = none := by
  obtain ⟨rest, rfl⟩ := List.isPrefixOf_iff_prefix.mp hm
  rfl

/-- Replacing an element that is not selected by another one selects the same. -/
theorem filterMap_set_of_none {α β : Type} {f : α → Option β} {l : List α} {i : Nat} {a : α}
    (hi : i < l.length) (hold : f l[i] = none) (hnew : f a = none) :
    (l.set i a).filterMap f = l.filterMap f := by
  have hsplit : l = l.take i ++ l[i] :: l.drop (i + 1) := by
    rw [← List.drop_eq_getElem_cons hi, List.take_append_drop]
  have hset : l.set i a = l.take i ++ a :: l.drop (i + 1) := by
    rw [List.set_eq_take_append_cons_drop, if_pos hi]
  rw [hset, List.filterMap_append, List.filterMap_cons_none hnew]
  conv_rhs => rw [hsplit, List.filterMap_append, List.filterMap_cons_none hold]

section MediaLine

variable {preferred : List (List Char)} {mLine : List Char}

/-- `split` keeps all fields of the new line. -/
theorem javaSplit_newLineParts (hfields : ∀ part ∈ mLine.splitOn ' ', part ≠ [])
    (hpreferred : ∀ p ∈ preferred, p ≠ []) :
    javaSplit (newLineParts preferred mLine) = newLineParts preferred mLine := by
  apply javaSplit_eq_self
  intro part hpart
  rcases mem_newLineParts hpart with hpart | hpart
  · exact hpreferred part hpart
  · exact hfields part hpart

/-- The fields of the new line, once more with the preferred ones in front. -/
theorem newLineParts_newLine (h : HasPayloadType mLine)
    (hfields : ∀ part ∈ mLine.splitOn ' ', part ≠ [])
    (hpreferred : ∀ p ∈ preferred, p ≠ [] ∧ ' ' ∉ p) :
    newLineParts preferred ([' '].intercalate (newLineParts preferred mLine)) =
      newLineParts preferred mLine := by
  have hblank (p : List Char) (hp : p ∈ preferred) : ' ' ∉ p := (hpreferred p hp).2
  have hsplit : ([' '].intercalate (newLineParts preferred mLine)).splitOn ' ' =
      newLineParts preferred mLine := splitOn_newLine hblank
  have hkept : javaSplit (newLineParts preferred mLine) = newLineParts preferred mLine :=
    javaSplit_newLineParts hfields fun p hp => (hpreferred p hp).1
  have hdrop : (newLineParts preferred mLine).drop 3 = preferred ++
      ((javaSplit (mLine.splitOn ' ')).drop 3).filter fun part => part ∉ preferred := by
    rw [newLineParts, List.append_assoc, List.drop_left' (length_header h)]
  have hgone : preferred.filter (fun part => part ∉ preferred) = [] := by simp
  rw [newLineParts, header_newLine h hblank, hsplit, hkept, hdrop, List.filter_append, hgone,
    List.nil_append, List.filter_filter]
  simp only [Bool.and_self]
  rfl

end MediaLine

end Sdp

open Sdp

section SecondPass

variable {codec s : String} {i : Nat} (h : RewritesVideo codec s)
  (hi : findMediaDescriptionLine false (textLines s) = some i)
include h hi

/-- The rewritten text has its video line where it was. -/
theorem findMediaDescriptionLine_preferCodec :
    findMediaDescriptionLine false (textLines (preferCodec s codec false)) = some i := by
  rw [textLines_preferCodec h hi]
  exact findMediaDescriptionLine_set hi (isPrefixOf_newVideoLine hi codec)

/-- The rewritten text maps the payload types of the codec as the old one does. -/
theorem codecPayloadTypes_preferCodec :
    codecPayloadTypes codec (preferCodec s codec false) = codecPayloadTypes codec s := by
  obtain ⟨hlt, hline, hmedia⟩ := videoLine_spec hi
  rw [codecPayloadTypes, textLines_preferCodec h hi]
  refine filterMap_set_of_none hlt ?_ ?_
  · rw [← hline]
    exact rtpmapPayload_of_media hmedia _
  · exact rtpmapPayload_of_media (isPrefixOf_newVideoLine hi codec) _

variable (hspaced : SingleSpaced (videoLine s))
include hspaced

/-- The second pass makes the same video line. -/
theorem newVideoLine_preferCodec :
    newVideoLine codec (preferCodec s codec false) = newVideoLine codec s := by
  have hmedia := (videoLine_spec hi).2.2
  have hpreferred (p : List Char) (hp : p ∈ codecPayloadTypes codec s) : p ≠ [] ∧ ' ' ∉ p := by
    obtain ⟨hne, hblank, -⟩ := codecPayloadTypes_wellFormed hp
    exact ⟨hne, hblank⟩
  have hparts := newLineParts_newLine h.2.2 (fun _ hpart => hspaced.ne_nil_of_mem hmedia hpart)
    hpreferred
  rw [newVideoLine, codecPayloadTypes_preferCodec h hi, videoLine_preferCodec h hi, newVideoLine,
    hparts]

/-- The second pass finds all it needs. -/
theorem rewritesVideo_preferCodec : RewritesVideo codec (preferCodec s codec false) := by
  have hmedia := (videoLine_spec hi).2.2
  refine ⟨?_, ?_, ?_⟩
  · rw [findMediaDescriptionLine_preferCodec h hi]
    exact Option.some_ne_none i
  · rw [codecPayloadTypes_preferCodec h hi]
    exact h.2.1
  · have hkept : javaSplit (newLineParts (codecPayloadTypes codec s) (videoLine s)) =
        newLineParts (codecPayloadTypes codec s) (videoLine s) :=
      javaSplit_newLineParts (fun _ hfield => hspaced.ne_nil_of_mem hmedia hfield)
        fun p hp => (codecPayloadTypes_wellFormed hp).1
    have hpos : 0 < (codecPayloadTypes codec s).length := List.length_pos_iff.mpr h.2.1
    rw [videoLine_preferCodec h hi, HasPayloadType, newVideoLine,
      splitOn_newLine fun p hp => (codecPayloadTypes_wellFormed hp).2.1, hkept, newLineParts,
      List.length_append, List.length_append, length_header h.2.2]
    omega

end SecondPass

/-- Preferring a codec again changes nothing where the first video line, if any, separates its
fields by single blanks. -/
theorem preferCodec_preferCodec {codec s : String} (hspaced : SingleSpaced (videoLine s)) :
    preferCodec (preferCodec s codec false) codec false = preferCodec s codec false := by
  by_cases h : RewritesVideo codec s
  · obtain ⟨i, hi⟩ := Option.ne_none_iff_exists'.mp h.1
    have hagain := preferCodec_eq (rewritesVideo_preferCodec h hi hspaced)
      (findMediaDescriptionLine_preferCodec h hi)
    rw [hagain, newVideoLine_preferCodec h hi hspaced, textLines_preferCodec h hi, List.set_set,
      ← preferCodec_eq h hi]
  · rw [preferCodec_eq_self h]
    exact preferCodec_eq_self h

/-- An offer is left alone by its receiver once its sender has preferred the codec. -/
theorem preferCodec_idempotent (s : String) (hspaced : SingleSpaced (videoLine s)) :
    preferCodec (preferCodec s "H264" false) "H264" false = preferCodec s "H264" false ∧
      (∀ link, ((Peer.onCreateSuccess true .OFFER s).run link).state =
        link.request (.setLocalDescription .OFFER (preferCodec s "H264" false))) ∧
      ∀ native socketId service,
        (PeerService.onReceiveOffer native socketId (some (preferCodec s "H264" false))).run
            service =
          (PeerService.setRemoteDescription native (service.connectionPeerDic.lookup socketId)
            .OFFER (some (preferCodec s "H264" false))).run
              { service with role := some .Receiver } := by
  have htwice : preferCodec (preferCodec s "H264" false) "H264" false =
      preferCodec s "H264" false := preferCodec_preferCodec hspaced
  refine ⟨htwice, fun link => ?_, fun native socketId service => ?_⟩
  · simp only [Peer.onCreateSuccess, PeerService.VIDEO_CODEC_H264, if_true, Task.run_modify]
  · simp only [PeerService.onReceiveOffer, PeerService.preferred, PeerService.VIDEO_CODEC_H264,
      deref, Except.map, htwice, ite_self, Task.run_bind, Task.run_modify, Task.run_get,
      Task.run_ofExcept, Outcome.andThen_ok, List.nil_append]

/-- One rewriting moves the payload type, and a second one has nothing to move. -/
theorem videoSection_idempotent : SingleSpaced (videoLine videoSection) ∧
    preferCodec videoSection "H264" false ≠ videoSection ∧
    preferCodec (preferCodec videoSection "H264" false) "H264" false =
      preferCodec videoSection "H264" false := by
  have hspaced : SingleSpaced (videoLine videoSection) := by decide +kernel
  exact ⟨hspaced, by decide +kernel, (preferCodec_idempotent videoSection hspaced).1⟩

-- a doubled blank is moved to the end of the line, where the second pass drops it
example : ¬∀ s, preferCodec (preferCodec s "H264" false) "H264" false =
    preferCodec s "H264" false := by
  intro h
  exact absurd (h "m=video 9 RTP/AVP  97\r\na=rtpmap:97 H264/90000\r\n") (by decide +kernel)

end WebrtcCaller
