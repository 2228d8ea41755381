import Mathlib.Data.List.Chain
import Mathlib.Data.List.Infix
import WebrtcCaller.Client.Sdp

/-!
# What a codec preference changes

Splitting a text into lines and joining the lines are inverse to each other, and so
are the two for the fields of a line. Where `preferCodec` rewrites a text it therefore
replaces the first video line and nothing else. It puts the codec's payload types of
the whole text in front of those left in the line, so the line keeps its payload types
exactly when it names each of the codec's as often as the text maps it.
-/

namespace WebrtcCaller

namespace Sdp

section Lines

/-- No line end inside. -/
def Unbroken (line : List Char) : Prop := line.IsChain fun c d => ¬(c = '\r' ∧ d = '\n')

/-- A character that starts no line break belongs to the line it is in. -/
theorem splitLines_cons {c : Char} {cs : List Char} (h : ¬(c = '\r' ∧ cs.head? = some '\n')) :
    splitLines (c :: cs) = (splitLines cs).modifyHead (c :: ·) := by
  rw [splitLines]
  rintro cs' rfl rfl
  exact h ⟨rfl, rfl⟩

theorem splitLines_ne_nil (cs : List Char) : splitLines cs ≠ [] := by
  fun_induction splitLines cs with
  | case1 => simp
  | case2 cs ih => simp
  | case3 c cs h ih =>
    cases hs : splitLines cs with
    | nil => exact absurd hs ih
    | cons l ls => simp

/-- The first line starts as the text does. -/
theorem head?_of_splitLines {cs l : List Char} {ls : List (List Char)}
    (h : splitLines cs = l :: ls) : l = [] ∨ l.head? = cs.head? := by
  fun_cases splitLines cs with
  | case1 => simp_all [splitLines]
  | case2 cs => simp_all [splitLines]
  | case3 c cs hc =>
    rw [splitLines] at h
    · cases hs : splitLines cs with
      | nil => simp [hs] at h
      | cons l' ls' =>
        rw [hs, List.modifyHead_cons] at h
        obtain ⟨rfl, rfl⟩ := List.cons.inj h
        exact Or.inr rfl
    · exact hc

/-- A line contains no line break. -/
theorem unbroken_of_mem_splitLines {cs l : List Char} (hl : l ∈ splitLines cs) : Unbroken l := by
  fun_induction splitLines cs generalizing l with
  | case1 =>
    obtain rfl := List.mem_singleton.mp hl
    exact List.isChain_nil
  | case2 cs ih =>
    rcases List.mem_cons.mp hl with rfl | hl
    · exact List.isChain_nil
    · exact ih hl
  | case3 c cs h ih =>
    cases hs : splitLines cs with
    | nil => exact absurd hs (splitLines_ne_nil cs)
    | cons l' ls =>
      rw [hs, List.modifyHead_cons, List.mem_cons] at hl
      rcases hl with rfl | hl
      · have hl' : Unbroken l' := ih (by rw [hs]; exact List.mem_cons_self ..)
        refine List.isChain_cons.mpr ⟨?_, hl'⟩
        rintro d hd ⟨rfl, rfl⟩
        rcases head?_of_splitLines hs with rfl | hhead
        · simp at hd
        · rw [hhead] at hd
          obtain ⟨cs', rfl⟩ : ∃ cs', cs = '\n' :: cs' := by
            cases cs with
            | nil => simp at hd
            | cons d cs' => exact ⟨cs', by simp_all⟩
          exact h cs' rfl rfl
      · exact ih (by rw [hs]; exact List.mem_cons_of_mem _ hl)

/-- A line break after an unbroken piece ends a line. -/
theorem splitLines_append {l : List Char} (h : Unbroken l) (rest : List Char) :
    splitLines (l ++ '\r' :: '\n' :: rest) = l :: splitLines rest := by
  induction l with
  | nil => rfl
  | cons c l ih =>
    obtain ⟨hc, hl⟩ := List.isChain_cons.mp h
    rw [List.cons_append, splitLines_cons, ih hl, List.modifyHead_cons]
    rintro ⟨rfl, hhead⟩
    cases l with
    | nil => simp at hhead
    | cons d l => exact hc d rfl ⟨rfl, by simpa using hhead⟩

/-- A non-empty list of lines is joined with the delimiter at its end. -/
theorem suffix_joinString {lines : List (List Char)} (h : lines ≠ []) (delimiter : List Char) :
    delimiter <:+ joinString lines delimiter true := by
  rw [joinString, if_neg h, if_pos rfl]
  exact List.suffix_append _ _

/-- Lines that are joined, each with a line end, are those the text splits into. -/
theorem splitLines_joinString {lines : List (List Char)} (h : ∀ l ∈ lines, Unbroken l)
    (hne : lines ≠ []) : splitLines (joinString lines "\r\n".toList true) = lines ++ [[]] := by
  have hjoin : joinString lines "\r\n".toList true =
      "\r\n".toList.intercalate lines ++ ['\r', '\n'] := by
    simp [joinString, hne]
  rw [hjoin]
  induction lines with
  | nil => exact absurd rfl hne
  | cons l lines ih =>
    obtain ⟨hl, hlines⟩ := List.forall_mem_cons.mp h
    cases lines with
    | nil => simpa [splitLines] using splitLines_append hl []
    | cons l' lines =>
      have := ih hlines (List.cons_ne_nil _ _) (by simp [joinString])
      rw [List.intercalate_cons_cons, List.append_assoc, List.append_assoc]
      exact (splitLines_append hl _).trans (congrArg (l :: ·) this)

end Lines

section Fields

/-- The parts of a split do not contain the separator. -/
theorem not_mem_of_mem_splitOn {c : Char} {cs part : List Char} (h : part ∈ cs.splitOn c) :
    c ∉ part := by
  induction cs generalizing part with
  | nil => simp_all
  | cons d cs ih =>
    rw [List.splitOn_cons_eq_if_modifyHead] at h
    split at h
    · rcases List.mem_cons.mp h with rfl | h
      · exact List.not_mem_nil
      · exact ih h
    · rename_i hd
      cases hs : cs.splitOn c with
      | nil => simp [hs] at h
      | cons p ps =>
        rw [hs, List.modifyHead_cons, List.mem_cons] at h
        rcases h with rfl | h
        · have hp : c ∉ p := ih (by rw [hs]; exact List.mem_cons_self ..)
          exact fun hc => (List.mem_cons.mp hc).elim (fun he => hd (by simp [he])) hp
        · exact ih (by rw [hs]; exact List.mem_cons_of_mem _ h)

/-- Every part occurs in what is joined. -/
theorem infix_intercalate {sep part : List Char} {parts : List (List Char)} (h : part ∈ parts) :
    part <:+: sep.intercalate parts := by
  induction parts with
  | nil => cases h
  | cons p parts ih =>
    cases parts with
    | nil => simp_all
    | cons p' parts =>
      rw [List.intercalate_cons_cons]
      rcases List.mem_cons.mp h with rfl | h
      · exact ⟨[], sep ++ sep.intercalate (p' :: parts), by simp⟩
      · exact (ih h).trans (List.suffix_append _ _).isInfix

/-- The fields of an unbroken line are unbroken. -/
theorem Unbroken.of_mem_splitOn {line part : List Char} {c : Char} (h : Unbroken line)
    (hp : part ∈ line.splitOn c) : Unbroken part := by
  have hi : part <:+: [c].intercalate (line.splitOn c) := infix_intercalate hp
  rw [List.intercalate_splitOn] at hi
  exact h.infix hi

/-- Fields joined by blanks make no line end. -/
theorem unbroken_intercalate {parts : List (List Char)} (h : ∀ p ∈ parts, Unbroken p) :
    Unbroken ([' '].intercalate parts) := by
  induction parts with
  | nil => exact List.isChain_nil
  | cons p parts ih =>
    obtain ⟨hp, hparts⟩ := List.forall_mem_cons.mp h
    cases parts with
    | nil => simpa using hp
    | cons p' parts =>
      rw [List.intercalate_cons_cons, List.append_assoc]
      refine List.isChain_append.mpr ⟨hp, ?_, ?_⟩
      · refine List.isChain_cons.mpr ⟨?_, ih hparts⟩
        rintro d _ ⟨hd, _⟩
        exact absurd hd (by decide)
      · rintro c _ d hd ⟨_, rfl⟩
        simp at hd

/-- The payload type of an rtpmap line is a number. -/
theorem rtpmapPayload_digits {codec line p : List Char} (h : rtpmapPayload codec line = some p) :
    p ≠ [] ∧ ∀ c ∈ p, c.isDigit := by
  unfold rtpmapPayload at h
  split at h
  · cases h
  · rename_i rest _
    simp only at h
    split at h
    · cases h
    · rename_i hne
      split at h
      · cases h
      · split at h
        · obtain rfl := Option.some.inj h
          refine ⟨fun hp => hne (by simp [hp]), fun c hc => ?_⟩
          exact List.mem_takeWhile_imp hc
        · cases h

end Fields


section Trailing

/-- `split` drops nothing but empty pieces at the end. -/
theorem javaSplit_append (pieces : List (List Char)) :
    ∃ dropped, pieces = javaSplit pieces ++ dropped ∧ ∀ piece ∈ dropped, piece = [] := by
  unfold javaSplit
  split
  · exact ⟨[], by simp⟩
  · refine ⟨pieces.rtakeWhile List.isEmpty, List.rdropWhile_append_rtakeWhile.symm, ?_⟩
    intro piece hpiece
    exact List.isEmpty_iff.mp (List.mem_rtakeWhile_imp hpiece)

/-- Only the empty text has one empty line and no other. -/
theorem eq_nil_of_splitLines {cs : List Char} (h : splitLines cs = [[]]) : cs = [] := by
  fun_cases splitLines cs with
  | case1 => rfl
  | case2 cs =>
    rw [splitLines] at h
    exact absurd (List.cons.inj h).2 (splitLines_ne_nil cs)
  | case3 c cs hc =>
    rw [splitLines] at h
    · cases hs : splitLines cs with
      | nil => exact absurd hs (splitLines_ne_nil cs)
      | cons l ls => simp [hs] at h
    · exact hc

/-- The lines of a text, trailing empty ones ignored. -/
def textLines (s : String) : List (List Char) := (splitLines s.toList).rdropWhile List.isEmpty

/-- Java's split drops no line but the trailing empty ones. -/
theorem javaSplit_splitLines {s : String} (h : s ≠ "") :
    javaSplit (splitLines s.toList) = textLines s := by
  unfold javaSplit textLines
  split
  · rename_i hlen
    obtain ⟨l, hl⟩ := List.length_eq_one_iff.mp hlen
    rw [hl, List.rdropWhile_singleton, if_neg]
    intro hempty
    rw [List.isEmpty_iff.mp hempty] at hl
    exact h (String.toList_eq_nil_iff.mp (eq_nil_of_splitLines hl))
  · rfl

/-- A line of a text contains no line break. -/
theorem unbroken_of_mem_textLines {s : String} {l : List Char} (hl : l ∈ textLines s) :
    Unbroken l :=
  unbroken_of_mem_splitLines ((List.rdropWhile_prefix _ _).subset hl)

/-- Replacing a line by one that is not empty leaves no empty line at the end. -/
theorem rdropWhile_set {lines : List (List Char)} (h : lines.rdropWhile List.isEmpty = lines)
    (i : Nat) {line : List Char} (hline : line ≠ []) :
    (lines.set i line).rdropWhile List.isEmpty = lines.set i line := by
  rw [List.rdropWhile_eq_self_iff] at h ⊢
  intro hne
  rw [List.getLast_eq_getElem, List.getElem_set]
  split
  · simpa using hline
  · have hne' : lines ≠ [] := by simpa using hne
    simpa [List.getLast_eq_getElem] using h hne'

/-- The lines of a text that has been put together from lines. -/
theorem textLines_joinString {lines : List (List Char)} (h : ∀ l ∈ lines, Unbroken l)
    (hne : lines ≠ []) (hlast : lines.rdropWhile List.isEmpty = lines) :
    textLines (String.ofList (joinString lines "\r\n".toList true)) = lines := by
  rw [textLines, String.toList_ofList, splitLines_joinString h hne,
    List.rdropWhile_concat_pos _ _ _ rfl, hlast]

end Trailing

section MediaLine

variable {preferred : List (List Char)} {mLine newMLine : List Char}

/-- The payload types of a media line: its fields from the fourth on. -/
def payloadTypes (mLine : List Char) : List (List Char) :=
  ((mLine.splitOn ' ').drop 3).filter fun part => !part.isEmpty

/-- A video line is one whose first of several fields says so. -/
theorem isPrefixOf_media {line : List Char} :
    "m=video ".toList.isPrefixOf line ↔
      ∃ p ps, line.splitOn ' ' = "m=video".toList :: p :: ps := by
  constructor
  · intro h
    obtain ⟨rest, rfl⟩ := List.isPrefixOf_iff_prefix.mp h
    cases hs : rest.splitOn ' ' with
    | nil => exact absurd hs (by simp)
    | cons p ps =>
      refine ⟨p, ps, ?_⟩
      have hrest : rest = [' '].intercalate (p :: ps) := by rw [← hs, List.intercalate_splitOn]
      have hline : "m=video ".toList ++ rest =
          [' '].intercalate ("m=video".toList :: p :: ps) := by
        rw [List.intercalate_cons_cons, ← hrest]
        rfl
      rw [hline, List.splitOn_intercalate]
      · intro part hpart
        rcases List.mem_cons.mp hpart with rfl | hpart
        · decide
        · exact not_mem_of_mem_splitOn (hs ▸ hpart)
      · exact List.cons_ne_nil _ _
  · rintro ⟨p, ps, hs⟩
    have hline : line = "m=video ".toList ++ [' '].intercalate (p :: ps) := by
      have hjoin : [' '].intercalate (line.splitOn ' ') = line := List.intercalate_splitOn ' '
      rw [← hjoin, hs, List.intercalate_cons_cons]
      rfl
    rw [hline]
    exact List.isPrefixOf_iff_prefix.mpr (List.prefix_append _ _)

/-- A media line with a payload type, as `movePayloadTypesToFront` asks for it. -/
def HasPayloadType (mLine : List Char) : Prop := 3 < (javaSplit (mLine.splitOn ' ')).length

/-- Whether a media line has a payload type is decided by counting its parts. -/
instance (mLine : List Char) : Decidable (HasPayloadType mLine) :=
  inferInstanceAs (Decidable (3 < _))

/-- The header of a media line and its payload types, as `split` gives them. -/
theorem fields_of_javaSplit (h : HasPayloadType mLine) :
    (javaSplit (mLine.splitOn ' ')).take 3 = (mLine.splitOn ' ').take 3 ∧
    ((javaSplit (mLine.splitOn ' ')).drop 3).filter (fun part => !part.isEmpty) =
      payloadTypes mLine := by
  obtain ⟨dropped, happ, hdropped⟩ := javaSplit_append (mLine.splitOn ' ')
  have hnil : dropped.filter (fun part => !part.isEmpty) = [] := by
    refine List.filter_eq_nil_iff.mpr fun part hpart => ?_
    simp [hdropped part hpart]
  rw [HasPayloadType] at h
  rw [payloadTypes]
  generalize javaSplit (mLine.splitOn ' ') = kept at h happ
  rw [happ, List.take_append_of_le_length h.le, List.drop_append_of_le_length h.le,
    List.filter_append, hnil, List.append_nil]
  exact ⟨rfl, rfl⟩

/-- A media line with a payload type is written anew with the preferred ones in front. -/
theorem movePayloadTypesToFront_eq (preferred : List (List Char)) (h : HasPayloadType mLine) :
    movePayloadTypesToFront preferred mLine =
      some ([' '].intercalate (newLineParts preferred mLine)) := by
  unfold movePayloadTypesToFront
  simp only
  rw [if_neg (Nat.not_le.mpr h), (fields_of_javaSplit h).1]
  have hne : newLineParts preferred mLine ≠ [] := by
    simp [newLineParts]
  rw [← newLineParts, joinString, if_neg hne]
  simp

/-- A media line without payload types is not rewritten. -/
theorem movePayloadTypesToFront_eq_none (preferred : List (List Char))
    (h : ¬HasPayloadType mLine) : movePayloadTypesToFront preferred mLine = none := by
  unfold movePayloadTypesToFront
  exact if_pos (Nat.not_lt.mp h)

/-- Every part of the new line is preferred or was there before. -/
theorem mem_newLineParts {part : List Char} (h : part ∈ newLineParts preferred mLine) :
    part ∈ preferred ∨ part ∈ mLine.splitOn ' ' := by
  obtain ⟨dropped, happ, -⟩ := javaSplit_append (mLine.splitOn ' ')
  rw [newLineParts, List.append_assoc, List.mem_append, List.mem_append] at h
  rcases h with h | h | h
  · exact Or.inr (List.mem_of_mem_take h)
  · exact Or.inl h
  · refine Or.inr ?_
    rw [happ]
    exact List.mem_append_left _ (List.mem_of_mem_drop (List.mem_of_mem_filter h))

/-- The fields of the new line are the ones it has been joined from. -/
theorem splitOn_newLine (hpreferred : ∀ p ∈ preferred, ' ' ∉ p) :
    ([' '].intercalate (newLineParts preferred mLine)).splitOn ' ' =
      newLineParts preferred mLine := by
  refine List.splitOn_intercalate ' ' (fun part hpart => ?_) (by simp [newLineParts])
  rcases mem_newLineParts hpart with h | h
  · exact hpreferred part h
  · exact not_mem_of_mem_splitOn h

/-- A line that `movePayloadTypesToFront` takes has its three header fields. -/
theorem length_header (h : HasPayloadType mLine) : ((mLine.splitOn ' ').take 3).length = 3 := by
  rw [← (fields_of_javaSplit h).1, List.length_take]
  exact Nat.min_eq_left (Nat.le_of_lt h)

/-- The payload types of the new line: the preferred ones, then the others of the old line. -/
theorem payloadTypes_newLine (h : HasPayloadType mLine)
    (hpreferred : ∀ p ∈ preferred, p ≠ [] ∧ ' ' ∉ p) :
    payloadTypes ([' '].intercalate (newLineParts preferred mLine)) =
      preferred ++ (payloadTypes mLine).filter fun part => part ∉ preferred := by
  have hkeep : preferred.filter (fun part => !part.isEmpty) = preferred :=
    List.filter_eq_self.mpr fun p hp => by simpa using (hpreferred p hp).1
  conv_lhs => rw [payloadTypes, splitOn_newLine fun p hp => (hpreferred p hp).2, newLineParts,
    List.append_assoc, List.drop_left' (length_header h), List.filter_append, hkeep]
  rw [← (fields_of_javaSplit h).2, List.filter_filter, List.filter_filter]
  simp only [Bool.and_comm]

/-- The header of the new line is that of the old one. -/
theorem header_newLine (h : HasPayloadType mLine) (hpreferred : ∀ p ∈ preferred, ' ' ∉ p) :
    (([' '].intercalate (newLineParts preferred mLine)).splitOn ' ').take 3 =
      (mLine.splitOn ' ').take 3 := by
  rw [splitOn_newLine hpreferred, newLineParts, List.append_assoc,
    List.take_left' (length_header h)]

/-- The new line describes video where the old one does. -/
theorem isPrefixOf_newLine (hpreferred : ∀ p ∈ preferred, ' ' ∉ p)
    (hm : "m=video ".toList.isPrefixOf mLine) :
    "m=video ".toList.isPrefixOf ([' '].intercalate (newLineParts preferred mLine)) := by
  obtain ⟨p, ps, hs⟩ := isPrefixOf_media.mp hm
  refine isPrefixOf_media.mpr ⟨p, ps.take 1 ++ preferred ++
    ((javaSplit (mLine.splitOn ' ')).drop 3).filter fun part => part ∉ preferred, ?_⟩
  rw [splitOn_newLine hpreferred, newLineParts, hs]
  rfl

/-- The new line is still one line. -/
theorem unbroken_newLine (hm : Unbroken mLine) (hpreferred : ∀ p ∈ preferred, Unbroken p) :
    Unbroken ([' '].intercalate (newLineParts preferred mLine)) := by
  refine unbroken_intercalate fun part hpart => ?_
  rcases mem_newLineParts hpart with h | h
  · exact hpreferred part h
  · exact hm.of_mem_splitOn h

end MediaLine

end Sdp

open Sdp

section Preference

variable {codec s : String}

/-- The payload types with an rtpmap line for a codec, one for each such line. -/
def codecPayloadTypes (codec s : String) : List (List Char) :=
  (textLines s).filterMap (rtpmapPayload codec.toList)

/-- The first line that describes video, empty where there is none. -/
def videoLine (s : String) : List Char :=
  match findMediaDescriptionLine false (textLines s) with
  | none => []
  | some i => (textLines s).getD i []

/-- The texts whose video line `preferCodec` puts together anew. -/
def RewritesVideo (codec s : String) : Prop :=
  findMediaDescriptionLine false (textLines s) ≠ none ∧
  codecPayloadTypes codec s ≠ [] ∧ HasPayloadType (videoLine s)

/-- Whether a text is rewritten can be computed. -/
instance (codec s : String) : Decidable (RewritesVideo codec s) :=
  inferInstanceAs (Decidable (_ ∧ _ ∧ _))

/-- A payload type of a codec is a number, so it is not empty and neither a field nor a line ends
inside it. -/
theorem codecPayloadTypes_wellFormed {p : List Char} (hp : p ∈ codecPayloadTypes codec s) :
    p ≠ [] ∧ ' ' ∉ p ∧ Unbroken p := by
  obtain ⟨line, -, hline⟩ := List.mem_filterMap.mp hp
  obtain ⟨hne, hdigits⟩ := rtpmapPayload_digits hline
  refine ⟨hne, fun hblank => absurd (hdigits _ hblank) (by decide), ?_⟩
  refine List.Pairwise.isChain (List.pairwise_of_forall_mem_list fun c hc d _ => ?_)
  rintro ⟨rfl, -⟩
  exact absurd (hdigits _ hc) (by decide)

/-- `preferCodec` reads a text by its lines. -/
theorem preferCodec_eq_textLines (s codec : String) :
    preferCodec s codec false =
      match findMediaDescriptionLine false (textLines s) with
      | none => s
      | some i =>
        if (codecPayloadTypes codec s).isEmpty then s
        else match movePayloadTypesToFront (codecPayloadTypes codec s)
            ((textLines s).getD i []) with
          | none => s
          | some newMLine =>
            String.ofList (joinString ((textLines s).set i newMLine) "\r\n".toList true) := by
  by_cases hs : s = ""
  · subst hs
    rfl
  · rw [preferCodec, javaSplit_splitLines hs]
    simp only [codecPayloadTypes]
    cases findMediaDescriptionLine false (textLines s) with
    | none => rfl
    | some i =>
      -- the inner matches agree branch by branch
      refine if_congr Iff.rfl rfl ?_
      cases movePayloadTypesToFront _ _ with
      | none => rfl
      | some newMLine => rfl

theorem preferCodec_eq_self (h : ¬RewritesVideo codec s) : preferCodec s codec false = s := by
  rw [preferCodec_eq_textLines]
  split
  · rfl
  · rename_i i hi
    split
    · rfl
    · rename_i hcodec
      have hline : videoLine s = (textLines s).getD i [] := by simp [videoLine, hi]
      have hnot : ¬HasPayloadType ((textLines s).getD i []) := by
        intro hpayload
        exact h ⟨by simp [hi], by simpa using hcodec, hline ▸ hpayload⟩
      rw [movePayloadTypesToFront_eq_none _ hnot]

/-- The line a rewriting text gets in place of its video line. -/
def newVideoLine (codec s : String) : List Char :=
  [' '].intercalate (newLineParts (codecPayloadTypes codec s) (videoLine s))

/-- A rewritten text differs in its first video line only. -/
theorem preferCodec_eq {i : Nat} (h : RewritesVideo codec s)
    (hi : findMediaDescriptionLine false (textLines s) = some i) :
    preferCodec s codec false = String.ofList
      (joinString ((textLines s).set i (newVideoLine codec s)) "\r\n".toList true) := by
  obtain ⟨-, hcodec, hpayload⟩ := h
  have hline : videoLine s = (textLines s).getD i [] := by simp [videoLine, hi]
  rw [preferCodec_eq_textLines, hi]
  simp only
  rw [if_neg (by simpa using hcodec), ← hline, movePayloadTypesToFront_eq _ hpayload]
  rfl

/-- The line found is the first that describes video. -/
theorem findMediaDescriptionLine_eq_some {lines : List (List Char)} {i : Nat} :
    findMediaDescriptionLine false lines = some i ↔
      ∃ h : i < lines.length, "m=video ".toList.isPrefixOf lines[i] ∧
        ∀ j (hj : j < i), ¬"m=video ".toList.isPrefixOf lines[j] :=
  List.findIdx?_eq_some_iff_getElem

/-- Another video line in place of the first one is found in its place. -/
theorem findMediaDescriptionLine_set {lines : List (List Char)} {i : Nat} {line : List Char}
    (h : findMediaDescriptionLine false lines = some i)
    (hline : "m=video ".toList.isPrefixOf line) :
    findMediaDescriptionLine false (lines.set i line) = some i := by
  obtain ⟨hi, -, hbefore⟩ := findMediaDescriptionLine_eq_some.mp h
  refine findMediaDescriptionLine_eq_some.mpr ⟨by simpa using hi, ?_, fun j hj => ?_⟩
  · rw [List.getElem_set_self]
    exact hline
  · rw [List.getElem_set_ne (Nat.ne_of_gt hj)]
    exact hbefore j hj

section Rewritten

variable {i : Nat} (h : RewritesVideo codec s)
  (hi : findMediaDescriptionLine false (textLines s) = some i)
include hi

/-- The line that is found is a video line of the text. -/
theorem videoLine_spec : ∃ hlt : i < (textLines s).length, videoLine s = (textLines s)[i] ∧
    "m=video ".toList.isPrefixOf (videoLine s) := by
  obtain ⟨hlt, hmedia, -⟩ := findMediaDescriptionLine_eq_some.mp hi
  have hline : videoLine s = (textLines s)[i] := by
    simp [videoLine, hi, hlt]
  exact ⟨hlt, hline, hline ▸ hmedia⟩

/-- The rewritten line is a video line again. -/
theorem isPrefixOf_newVideoLine (codec : String) :
    "m=video ".toList.isPrefixOf (newVideoLine codec s) :=
  isPrefixOf_newLine (fun _ hp => (codecPayloadTypes_wellFormed hp).2.1) (videoLine_spec hi).2.2

include h

/-- The rewritten text has the lines of the old one, but for the video line. -/
theorem textLines_preferCodec :
    textLines (preferCodec s codec false) = (textLines s).set i (newVideoLine codec s) := by
  obtain ⟨hlt, hline, -⟩ := videoLine_spec hi
  have hnew : newVideoLine codec s ≠ [] := by
    intro hnil
    have hmedia := isPrefixOf_newVideoLine hi codec
    rw [hnil] at hmedia
    exact absurd hmedia (by decide)
  rw [preferCodec_eq h hi]
  refine textLines_joinString ?_ ?_ ?_
  · intro line hmem
    rcases List.mem_or_eq_of_mem_set hmem with hmem | hnewLine
    · exact unbroken_of_mem_textLines hmem
    · rw [hnewLine]
      refine unbroken_newLine ?_ fun p hp => (codecPayloadTypes_wellFormed hp).2.2
      rw [hline]
      exact unbroken_of_mem_textLines (List.getElem_mem hlt)
  · intro hnil
    have hlen := congrArg List.length hnil
    rw [List.length_set, List.length_nil] at hlen
    omega
  · exact rdropWhile_set (List.rdropWhile_idempotent _ _) i hnew

/-- The new video line is where the old one was. -/
theorem videoLine_preferCodec : videoLine (preferCodec s codec false) = newVideoLine codec s := by
  obtain ⟨hlt, -, -⟩ := videoLine_spec hi
  rw [videoLine, textLines_preferCodec h hi,
    findMediaDescriptionLine_set hi (isPrefixOf_newVideoLine hi codec)]
  simp [hlt]

/-- The payload types of the rewritten video line. -/
theorem payloadTypes_preferCodec :
    payloadTypes (videoLine (preferCodec s codec false)) = codecPayloadTypes codec s ++
      (payloadTypes (videoLine s)).filter fun part => part ∉ codecPayloadTypes codec s := by
  rw [videoLine_preferCodec h hi, newVideoLine]
  refine payloadTypes_newLine h.2.2 fun p hp => ?_
  obtain ⟨hne, hblank, -⟩ := codecPayloadTypes_wellFormed hp
  exact ⟨hne, hblank⟩

end Rewritten

/-- What a codec preference may do to a text: of the line `i` that describes video it keeps the
header and the order of the other codecs' payload types, which come last. -/
structure ReorderedAt (codec s t : String) (i : Nat) : Prop where
  first : findMediaDescriptionLine false (textLines s) = some i
  length : (textLines t).length = (textLines s).length
  others : ∀ j, j ≠ i → (textLines t)[j]? = (textLines s)[j]?
  ending : "\r\n".toList <:+ t.toList
  header : (((textLines t).getD i []).splitOn ' ').take 3 =
    (((textLines s).getD i []).splitOn ' ').take 3
  preferred : (payloadTypes ((textLines t).getD i [])).Pairwise fun p q =>
    q ∈ codecPayloadTypes codec s → p ∈ codecPayloadTypes codec s
  kept : (payloadTypes ((textLines t).getD i [])).filter (· ∉ codecPayloadTypes codec s) =
    (payloadTypes ((textLines s).getD i [])).filter (· ∉ codecPayloadTypes codec s)

/-- A rewriting is a reordering of one line. -/
theorem ReorderedAt.of_rewritesVideo {i : Nat} (h : RewritesVideo codec s)
    (hi : findMediaDescriptionLine false (textLines s) = some i) :
    ReorderedAt codec s (preferCodec s codec false) i := by
  obtain ⟨hlt, -, -⟩ := videoLine_spec hi
  have hlines := textLines_preferCodec h hi
  have hs : (textLines s).getD i [] = videoLine s := by simp [videoLine, hi]
  have ht : (textLines (preferCodec s codec false)).getD i [] =
      videoLine (preferCodec s codec false) := by
    rw [videoLine_preferCodec h hi, hlines]
    simp [hlt]
  refine ⟨hi, ?_, fun j hj => ?_, ?_, ?_, ?_, ?_⟩
  · rw [hlines, List.length_set]
  · rw [hlines, List.getElem?_set_ne (Ne.symm hj)]
  · have hne : (textLines s).set i (newVideoLine codec s) ≠ [] := by
      intro hnil
      rw [List.set_eq_nil_iff] at hnil
      simp [hnil] at hlt
    have htext : (preferCodec s codec false).toList =
        joinString ((textLines s).set i (newVideoLine codec s)) "\r\n".toList true :=
      (congrArg String.toList (preferCodec_eq h hi)).trans String.toList_ofList
    rw [htext]
    exact suffix_joinString hne _
  · rw [hs, ht, videoLine_preferCodec h hi, newVideoLine]
    exact header_newLine h.2.2 fun p hp => (codecPayloadTypes_wellFormed hp).2.1
  · rw [ht, payloadTypes_preferCodec h hi]
    refine List.pairwise_append.mpr ⟨?_, ?_, fun p hp q _ _ => hp⟩
    · exact List.pairwise_of_forall_mem_list fun p hp _ _ _ => hp
    · refine List.pairwise_of_forall_mem_list fun p _ q hq hcodec => ?_
      exact absurd hcodec (by simpa using (List.mem_filter.mp hq).2)
  · rw [hs, ht, payloadTypes_preferCodec h hi, List.filter_append, List.filter_filter]
    simp

/-- A codec preference leaves a text as it is, or reorders its first video line. -/
theorem preferCodec_only_reorders (s : String) :
    preferCodec s "H264" false = s ∨ ∃ i, ReorderedAt "H264" s (preferCodec s "H264" false) i := by
  by_cases h : RewritesVideo "H264" s
  · obtain ⟨i, hi⟩ := Option.ne_none_iff_exists'.mp h.1
    exact Or.inr ⟨i, .of_rewritesVideo h hi⟩
  · exact Or.inl (preferCodec_eq_self h)

/-- Putting a list in front of what is left of another rearranges the other exactly when it holds
each of its members as often. -/
theorem append_filter_perm_iff {α : Type} [BEq α] [LawfulBEq α] (front all : List α) :
    (front ++ all.filter (· ∉ front)).Perm all ↔ ∀ a ∈ front, front.count a = all.count a := by
  rw [List.perm_iff_count]
  refine forall_congr' fun a => ?_
  rw [List.count_append]
  by_cases ha : a ∈ front
  · have hzero : (all.filter (· ∉ front)).count a = 0 :=
      List.count_eq_zero.mpr (by simp [ha])
    rw [hzero, Nat.add_zero]
    exact ⟨fun heq _ => heq, fun heq => heq ha⟩
  · have hall : (all.filter (· ∉ front)).count a = all.count a :=
      List.count_filter (by simpa using ha)
    rw [List.count_eq_zero.mpr ha, hall, Nat.zero_add]
    exact ⟨fun _ hmem => absurd hmem ha, fun _ => rfl⟩

/-- A rewritten video line keeps its payload types exactly when it names each of the codec's as
often as the lines of the whole text map it. -/
theorem preferCodec_perm_iff (s : String) (h : RewritesVideo "H264" s) :
    (payloadTypes (videoLine (preferCodec s "H264" false))).Perm (payloadTypes (videoLine s)) ↔
      ∀ p ∈ codecPayloadTypes "H264" s,
        (codecPayloadTypes "H264" s).count p = (payloadTypes (videoLine s)).count p := by
  obtain ⟨i, hi⟩ := Option.ne_none_iff_exists'.mp h.1
  rw [payloadTypes_preferCodec h hi]
  exact append_filter_perm_iff _ _

/-- A video section whose second payload type is the codec's. -/
def videoSection : String :=
  "m=video 9 RTP/AVP 96 97\r\na=rtpmap:97 H264/90000\r\n"

/-- One section with one matching `rtpmap`: the payload types are permuted. -/
theorem videoSection_perm : RewritesVideo "H264" videoSection ∧
    (payloadTypes (videoLine (preferCodec videoSection "H264" false))).Perm
      (payloadTypes (videoLine videoSection)) := by
  have h : RewritesVideo "H264" videoSection := by decide +kernel
  exact ⟨h, (preferCodec_perm_iff videoSection h).mpr (by decide +kernel)⟩

/-- The same section twice: the matching payload type is counted twice. -/
theorem twoSections_not_perm : RewritesVideo "H264" (videoSection ++ videoSection) ∧
    ¬(payloadTypes (videoLine (preferCodec (videoSection ++ videoSection) "H264" false))).Perm
      (payloadTypes (videoLine (videoSection ++ videoSection))) := by
  decide +kernel

end Preference
end WebrtcCaller
