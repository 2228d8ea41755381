import Mathlib.Data.List.DropRight

/-!
# Codec preference in session descriptions

`preferCodec` moves the payload types of one codec to the front of the first
media line of a description. It works on the lines of the text, as Java's
`split` gives them: trailing empty pieces are dropped once the delimiter
occurs, and a text without the delimiter is its own only piece.
-/

namespace WebrtcCaller

namespace Sdp

/-- The pieces between the line ends of a text. -/
def splitLines : List Char → List (List Char)
  | [] => [[]]
  | '\r' :: '\n' :: cs => [] :: splitLines cs
  | c :: cs => (splitLines cs).modifyHead (c :: ·)

/-- What `String.split` keeps of the pieces around a delimiter. -/
def javaSplit (pieces : List (List Char)) : List (List Char) :=
  if pieces.length = 1 then pieces else pieces.rdropWhile List.isEmpty

/-- The lines with the delimiter between them, and at the end if asked for. -/
def joinString (s : List (List Char)) (delimiter : List Char) (delimiterAtEnd : Bool) :
    List Char :=
  if s = [] then []
  else delimiter.intercalate s ++ if delimiterAtEnd then delimiter else []

/-- The first line of the medium, by its position. -/
def findMediaDescriptionLine (isAudio : Bool) (sdpLines : List (List Char)) : Option Nat :=
  let mediaDescription := if isAudio then "m=audio ".toList else "m=video ".toList
  sdpLines.findIdx? fun line => mediaDescription.isPrefixOf line

/-- `(/\d+)+[\r]?` up to the end of the line. -/
def matchesRates (tail : List Char) : Bool :=
  let rates := if tail.getLast? = some '\r' then tail.dropLast else tail
  match rates.splitOn '/' with
  | [] :: p :: ps => (p :: ps).all fun rate => !rate.isEmpty && rate.all Char.isDigit
  | _ => false

/-- The first group of `^a=rtpmap:(\d+) codec(/\d+)+[\r]?$`, on a line that matches. -/
def rtpmapPayload (codec line : List Char) : Option (List Char) :=
  match "a=rtpmap:".toList.isPrefixOf? line with
  | none => none
  | some rest =>
    let payload := rest.takeWhile Char.isDigit
    if payload.isEmpty then none
    else match (' ' :: codec).isPrefixOf? (rest.dropWhile Char.isDigit) with
      | none => none
      | some tail => if matchesRates tail then some payload else none

/-- The media line with the preferred payload types first; none if it has too few parts. -/
def movePayloadTypesToFront (preferredPayloadTypes : List (List Char)) (mLine : List Char) :
    Option (List Char) :=
  let origLineParts := javaSplit (mLine.splitOn ' ')
  if origLineParts.length ≤ 3 then none
  else
    let header := origLineParts.take 3
    let unpreferredPayloadTypes :=
      (origLineParts.drop 3).filter fun part => part ∉ preferredPayloadTypes
    some (joinString (header ++ preferredPayloadTypes ++ unpreferredPayloadTypes) [' '] false)

/-- The fields of the line that `movePayloadTypesToFront` returns. -/
def newLineParts (preferred : List (List Char)) (mLine : List Char) : List (List Char) :=
  (mLine.splitOn ' ').take 3 ++ preferred ++
    ((javaSplit (mLine.splitOn ' ')).drop 3).filter fun part => part ∉ preferred

end Sdp

open Sdp in
/-- The description with the payload types of the codec in front; unchanged without such a line. -/
def preferCodec (sdpDescription codec : String) (isAudio : Bool) : String :=
  let lines := javaSplit (splitLines sdpDescription.toList)
  match findMediaDescriptionLine isAudio lines with
  | none => sdpDescription
  | some mLineIndex =>
    let codecPayloadTypes := lines.filterMap (rtpmapPayload codec.toList)
    if codecPayloadTypes.isEmpty then sdpDescription
    else match movePayloadTypesToFront codecPayloadTypes (lines.getD mLineIndex []) with
      | none => sdpDescription
      | some newMLine =>
        String.ofList (joinString (lines.set mLineIndex newMLine) "\r\n".toList true)

end WebrtcCaller
