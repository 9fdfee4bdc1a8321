import Concerto.Text.Join
import Concerto.Text.Quoted

/-!
Text in files: bytes in UTF-8, with line breaks of any kind.

* `decode`: the text of bytes, or the first place at which they are no UTF-8;
* `decode_toByteArray`: the bytes of a text are read back as the text;
* `withLineFeeds`: every line break is a line feed;
* `ofBytes`: the text of a file.
-/

namespace Concerto.Text

/-! ### Bytes -/

/-- Why bytes are no UTF-8. -/
inductive EncodingFault where
  | startByte
  | continuationByte
  | endOfData
  deriving DecidableEq, Repr

/-- The words for a fault. -/
def EncodingFault.message : EncodingFault → String
  | startByte => "invalid start byte"
  | continuationByte => "invalid continuation byte"
  | endOfData => "unexpected end of data"

/-- A fault with the bytes of the character that it breaks off, and the number of bytes before
them. -/
structure EncodingError where
  fault : EncodingFault
  bytes : List UInt8
  position : Nat
  deriving DecidableEq, Repr

/-- The message of an error: a single byte is shown, several are named by their places. -/
def EncodingError.message (e : EncodingError) : String :=
  let place :=
    match e.bytes with
    | [b] =>
      "byte 0x" ++ String.ofList (hexDigits 2 b.toNat) ++ " in position " ++ toString e.position
    | bytes =>
      "bytes in position " ++ toString e.position ++ "-" ++
        toString (e.position + bytes.length - 1)
  "'utf-8' codec can't decode " ++ place ++ ": " ++ e.fault.message

/-- The range of the bytes that continue a character. -/
def continuation : UInt8 × UInt8 := (0x80, 0xBF)

/-- The ranges in which the bytes after the first byte of a character lie. The byte after the
first is limited further where the character would be written too long, would be a surrogate or
would be past the last one. -/
def continuationRanges? (first : UInt8) : Option (List (UInt8 × UInt8)) :=
  if first ≤ 0x7F then some []
  else if first < 0xC2 then none
  else if first < 0xE0 then some [continuation]
  else if first = 0xE0 then some [(0xA0, 0xBF), continuation]
  else if first = 0xED then some [(0x80, 0x9F), continuation]
  else if first < 0xF0 then some [continuation, continuation]
  else if first = 0xF0 then some [(0x90, 0xBF), continuation, continuation]
  else if first = 0xF4 then some [(0x80, 0x8F), continuation, continuation]
  else if first < 0xF4 then some [continuation, continuation, continuation]
  else none

/-- The bytes that lie in the ranges one after the other, and why not every range has one. -/
def spanRanges : List (UInt8 × UInt8) → List UInt8 → List UInt8 × Option EncodingFault
  | [], _ => ([], none)
  | _, [] => ([], some .endOfData)
  | (low, high) :: ranges, b :: bytes =>
    if low ≤ b && b ≤ high then
      let (inside, fault) := spanRanges ranges bytes
      (b :: inside, fault)
    else ([], some .continuationByte)

/-- The first place at which bytes are no UTF-8, with `position` bytes before them. -/
def firstFault (position : Nat) : List UInt8 → Option EncodingError
  | [] => none
  | b :: bytes =>
    match continuationRanges? b with
    | none => some ⟨.startByte, [b], position⟩
    | some ranges =>
      match spanRanges ranges bytes with
      | (inside, some fault) => some ⟨fault, b :: inside, position⟩
      | (inside, none) =>
        firstFault (position + 1 + inside.length) (bytes.drop inside.length)
termination_by bytes => bytes.length
decreasing_by simp only [List.length_drop, List.length_cons]; omega

/-- The text of bytes in UTF-8. Bytes that are the text of nothing have a first fault. -/
def decode (bytes : ByteArray) : Except EncodingError String :=
  match String.fromUTF8? bytes with
  | some s => .ok s
  | none => .error ((firstFault 0 bytes.toList).getD ⟨.endOfData, [], bytes.size⟩)

theorem decode_toByteArray (s : String) : decode s.toByteArray = .ok s := by
  have h : String.fromUTF8? s.toByteArray = some s := by
    simp only [String.fromUTF8?, s.isValidUTF8, dite_true]
    rfl
  simp [decode, h]

/-! ### Line breaks -/

/-- A carriage return, with the line feed after it if there is one, becomes a line feed. -/
def withLineFeeds : List Char → List Char
  | [] => []
  | '\r' :: '\n' :: cs => '\n' :: withLineFeeds cs
  | '\r' :: cs => '\n' :: withLineFeeds cs
  | c :: cs => c :: withLineFeeds cs

theorem withLineFeeds_of_not_mem {cs : List Char} (h : '\r' ∉ cs) : withLineFeeds cs = cs := by
  induction cs with
  | nil => rfl
  | cons c cs ih =>
    have hc : c ≠ '\r' := fun e => h (e ▸ List.mem_cons_self)
    rw [withLineFeeds]
    · rw [ih fun m => h (List.mem_cons_of_mem _ m)]
    · exact fun _ e _ => hc e
    · exact hc

/-- The text of a file. -/
def ofBytes (bytes : ByteArray) : Except EncodingError String :=
  (decode bytes).map fun s => String.ofList (withLineFeeds s.toList)

example : firstFault 0 [0x61, 0xFF] = some ⟨.startByte, [0xFF], 1⟩ := by cbv

example : firstFault 0 [0xE2, 0x82] = some ⟨.endOfData, [0xE2, 0x82], 0⟩ := by cbv

example : firstFault 0 [0xE2, 0x82, 0x41] = some ⟨.continuationByte, [0xE2, 0x82], 0⟩ := by cbv

end Concerto.Text
