import Mathlib.Data.List.Basic
import Mathlib.Data.List.Infix

/-!
# JSON value trees and the texts that carry them

Both programs exchange JSON texts: the server reads and writes them with Gson,
the clients with fastjson. The two libraries are taken as faithful, so a text
is kept together with the value tree that is read from it. Java doubles enter
only through the operations the two programs apply to them.
-/

namespace WebrtcCaller

/-- The raises of the two programs, by the Java class that is thrown. -/
inductive Raise where
  | nullPointer
  | classCast
  | numberFormat
  | jsonSyntax
  | illegalArgument
  /-- `getAsyncRemote().sendText` on a session the container has closed. -/
  | sendText
  /-- A native WebRTC call that does not return normally. -/
  | native
  deriving DecidableEq, Repr

/-- Java's `double`, as far as the two programs use it. -/
class JavaDouble (D : Type) where
  /-- `Double.toString`. -/
  toString : D → String
  /-- Neither infinite nor NaN. -/
  isFinite : D → Bool
  /-- `Double.parseDouble`; `none` is its `NumberFormatException`. -/
  parseDouble : String → Option D
  /-- The narrowing cast `(int) d`. -/
  intValue : D → Int32
  /-- The widening conversion of an `int`. -/
  ofInt : Int32 → D
  parseDouble_toString : ∀ d, parseDouble (toString d) = some d
  isFinite_ofInt : ∀ i, isFinite (ofInt i) = true
  intValue_ofInt : ∀ i, intValue (ofInt i) = i

/-- A decimal integer. -/
def printInt (i : Int) : List Char :=
  if i < 0 then '-' :: Nat.toDigits 10 i.natAbs else Nat.toDigits 10 i.natAbs

/-- Read back a decimal integer. -/
def parseInt (cs : List Char) : Option Int :=
  if cs.head? = some '-' then
    if cs.tail.all Char.isDigit then some (-(Nat.ofDigitChars 10 cs.tail 0 : Int)) else none
  else if cs.all Char.isDigit then some (Nat.ofDigitChars 10 cs 0) else none

/-- An integer that is printed is read back. -/
theorem parseInt_printInt (i : Int) : parseInt (printInt i) = some i := by
  have hd (n : Nat) : (Nat.toDigits 10 n).all Char.isDigit = true :=
    List.all_eq_true.mpr fun _ hc => Nat.isDigit_of_mem_toDigits (by decide) (by decide) hc
  by_cases hi : i < 0
  · simp only [printInt, hi, if_true, parseInt, List.head?_cons, List.tail_cons, hd,
      Nat.ofDigitChars_ten_toDigits]
    congr 1
    omega
  · have hh : (Nat.toDigits 10 i.natAbs).head? ≠ some '-' := by
      intro h
      have := List.all_eq_true.mp (hd i.natAbs) '-' (List.mem_of_head? h)
      exact absurd this (by decide)
    simp only [printInt, hi, if_false, parseInt, hh, hd, if_true, Nat.ofDigitChars_ten_toDigits]
    congr 1
    omega

/-- The doubles with an integral value in the range of `int`, the only numbers
the clients themselves put on the wire. -/
structure IntDouble where
  value : Int32

/-- Integers as Java prints its doubles. -/
instance : JavaDouble IntDouble where
  toString d := String.ofList (printInt d.value.toInt ++ ['.', '0'])
  isFinite _ := true
  parseDouble s :=
    if s.toList.drop (s.toList.length - 2) = ['.', '0'] then
      (parseInt (s.toList.take (s.toList.length - 2))).map fun i => ⟨Int32.ofInt i⟩
    else none
  intValue d := d.value
  ofInt i := ⟨i⟩
  parseDouble_toString d := by simp [parseInt_printInt]
  isFinite_ofInt _ := rfl
  intValue_ofInt _ := rfl

/-- A JSON value tree over the numbers `D`. -/
inductive Json (D : Type) where
  | null
  | bool (b : Bool)
  | num (d : D)
  | str (s : String)
  | arr (xs : List (Json D))
  | obj (fs : List (String × Json D))

/-- The members of a JSON object, in order. -/
abbrev Fields (D : Type) := List (String × Json D)

variable {D : Type}

/-- `Map.get`: an absent key and a stored null are both read as null. -/
def Fields.get : Fields D → String → Json D
  | [], _ => .null
  | (k, v) :: fs, key => if k = key then v else Fields.get fs key

/-- `Map.put`: a present key keeps its position. -/
def Fields.put (key : String) (v : Json D) : Fields D → Fields D
  | [] => [(key, v)]
  | (k, w) :: fs => if k = key then (key, v) :: fs else (k, w) :: Fields.put key v fs

/-- Reading after a `put` sees the new value at its key and nothing else changed. -/
theorem Fields.get_put (key k : String) (v : Json D) (fs : Fields D) :
    Fields.get (Fields.put key v fs) k = if k = key then v else Fields.get fs k := by
  induction fs with
  | nil => simp only [Fields.put, Fields.get, eq_comm]
  | cons f fs ih =>
    obtain ⟨k', w⟩ := f
    by_cases hk : k' = key
    · subst hk
      by_cases h : k' = k
      · simp [Fields.put, Fields.get, h]
      · simp [Fields.put, Fields.get, h, Ne.symm h]
    · by_cases h : k' = k
      · subst h
        simp [Fields.put, Fields.get, hk]
      · simp [Fields.put, Fields.get, hk, h, ih]

mutual

/-- The tree that Gson and fastjson write for a value: a member that is null is left out. -/
def Json.written : Json D → Json D
  | .arr xs => .arr (Json.writtenElems xs)
  | .obj fs => .obj (Fields.written fs)
  | j => j

/-- The elements of an array stay in their places, null or not. -/
def Json.writtenElems : List (Json D) → List (Json D)
  | [] => []
  | x :: xs => x.written :: Json.writtenElems xs

/-- A map has one member for each key, the first one listed. -/
def Fields.written : List (String × Json D) → List (String × Json D)
  | [] => []
  | (k, v) :: fs =>
    let others := (Fields.written fs).filter (·.1 ≠ k)
    match v with
    | .null => others
    | v => (k, v.written) :: others

end

/-- A map without one of its keys reads as before at the others. -/
theorem Fields.get_filter_ne (fs : Fields D) (key k : String) :
    Fields.get (fs.filter (·.1 ≠ key)) k = if k = key then .null else Fields.get fs k := by
  induction fs with
  | nil => simp only [List.filter_nil, Fields.get, ite_self]
  | cons f fs ih =>
    obtain ⟨k', v⟩ := f
    by_cases hk : k' = key
    · subst hk
      rw [List.filter_cons_of_neg (by simp), ih]
      by_cases h : k = k'
      · simp only [h, if_true]
      · simp only [h, if_false, Fields.get, Ne.symm h]
    · rw [List.filter_cons_of_pos (by simpa using hk), Fields.get, ih]
      by_cases h : k' = k
      · subst h
        simp only [hk, if_true, if_false, Fields.get]
      · simp only [h, if_false, Fields.get]

/-- A member is read back as the tree it was written as. -/
theorem Fields.get_written (fs : Fields D) (k : String) :
    Fields.get (Fields.written fs) k = (Fields.get fs k).written := by
  induction fs with
  | nil => rfl
  | cons f fs ih =>
    obtain ⟨k', v⟩ := f
    have hothers : Fields.get ((Fields.written fs).filter (·.1 ≠ k')) k =
        if k = k' then .null else (Fields.get fs k).written := by
      rw [Fields.get_filter_ne, ih]
    by_cases h : k' = k
    · subst h
      simp only [if_true] at hothers
      cases v <;> simp only [Fields.written, Fields.get, Json.written, if_true, hothers]
    · simp only [Ne.symm h, if_false] at hothers
      cases v <;> simp only [Fields.written, Fields.get, h, if_false, hothers]

/-- The shape of every signalling text: an event with its data. -/
theorem Json.written_event (eventName : String) (data : Fields D) :
    (Json.obj [("eventName", .str eventName), ("data", .obj data)]).written =
      .obj [("eventName", .str eventName), ("data", .obj (Fields.written data))] := by
  simp [Json.written, Fields.written]

section Text

variable [JavaDouble D]

mutual

/-- `Object.toString` of a value read by Gson. -/
def Json.javaString : Json D → String
  | .null => "null"
  | .bool b => if b then "true" else "false"
  | .num d => JavaDouble.toString d
  | .str s => s
  | .arr xs => "[" ++ ", ".intercalate (Json.javaStrings xs) ++ "]"
  | .obj fs => "\x7b" ++ ", ".intercalate (Json.javaEntries fs) ++ "\x7d"

/-- The element strings of a list. -/
def Json.javaStrings : List (Json D) → List String
  | [] => []
  | x :: xs => x.javaString :: Json.javaStrings xs

/-- The `key=value` strings of a map. -/
def Json.javaEntries : List (String × Json D) → List String
  | [] => []
  | (k, v) :: fs => (k ++ "=" ++ v.javaString) :: Json.javaEntries fs

end

mutual

/-- No number in the tree is infinite or NaN. -/
def Json.allFinite : Json D → Bool
  | .num d => JavaDouble.isFinite d
  | .arr xs => Json.allFiniteElems xs
  | .obj fs => Json.allFiniteFields fs
  | _ => true

/-- No number in the list is infinite or NaN. -/
def Json.allFiniteElems : List (Json D) → Bool
  | [] => true
  | x :: xs => x.allFinite && Json.allFiniteElems xs

/-- No number in the members is infinite or NaN. -/
def Json.allFiniteFields : List (String × Json D) → Bool
  | [] => true
  | (_, v) :: fs => v.allFinite && Json.allFiniteFields fs

end

/-- One character of a quoted JSON string. -/
def quoteChar (c : Char) : List Char :=
  if c = '"' then ['\\', '"']
  else if c = '\\' then ['\\', '\\']
  else if c = '\n' then ['\\', 'n']
  else if c = '\r' then ['\\', 'r']
  else if c = '\t' then ['\\', 't']
  else [c]

/-- A quoted JSON string. -/
def quote (s : String) : List Char := '"' :: (s.toList.flatMap quoteChar ++ ['"'])

mutual

/-- The compact text of a tree. -/
def Json.print : Json D → List Char
  | .null => "null".toList
  | .bool b => if b then "true".toList else "false".toList
  | .num d => (JavaDouble.toString d).toList
  | .str s => quote s
  | .arr xs => '[' :: (Json.printElems xs ++ [']'])
  | .obj fs => '{' :: (Json.printFields fs ++ ['}'])

/-- The elements, with commas between them. -/
def Json.printElems : List (Json D) → List Char
  | [] => []
  | [x] => x.print
  | x :: xs => x.print ++ ',' :: Json.printElems xs

/-- The members, with commas between them. -/
def Json.printFields : List (String × Json D) → List Char
  | [] => []
  | [(k, v)] => quote k ++ ':' :: v.print
  | (k, v) :: fs => quote k ++ ':' :: (v.print ++ ',' :: Json.printFields fs)

end

/-- A text on the wire with the value tree the JSON libraries read from it;
`none` is a text that is no JSON. -/
structure Text (D : Type) where
  raw : String
  tree : Option (Json D)

/-- `p` occurs somewhere in the characters. -/
def containsChars (p : List Char) : List Char → Bool
  | [] => p.isEmpty
  | c :: cs => p.isPrefixOf (c :: cs) || containsChars p cs

/-- The search is for an infix. -/
theorem containsChars_iff (p cs : List Char) : containsChars p cs = true ↔ p <:+: cs := by
  induction cs with
  | nil => simp [containsChars, List.infix_nil]
  | cons c cs ih => simp [containsChars, ih, List.infix_cons_iff]

/-- `message.contains(part)`. -/
def Text.contains (message : Text D) (part : String) : Bool :=
  containsChars part.toList message.raw.toList

/-- The text a faithful printer writes for a tree. -/
def Text.ofJson (j : Json D) : Text D := ⟨String.ofList j.written.print, some j.written⟩

@[simp] theorem Text.ofJson_tree (j : Json D) : (Text.ofJson j).tree = some j.written := rfl

end Text

end WebrtcCaller
