/-!
# Reading bytes as text

UTF-8, where the longest beginning of a character that is not completed counts as one fault.
-/

namespace WrapperGen.Text.Utf8

/-- The bytes that may come next, from the first to the last. -/
structure ByteRange where
  first : Nat
  last : Nat

def ByteRange.contains (r : ByteRange) (b : Nat) : Bool := r.first ≤ b && b ≤ r.last

/-- Any byte that continues a character. -/
def continuing : ByteRange := ⟨0x80, 0xBF⟩

/-- What a byte starts. -/
inductive Lead
  | complete (c : Char)
  | start (bits : Nat) (next : ByteRange) (more : List ByteRange)
  | fault

def lead (b : Nat) : Lead :=
  if b < 0x80 then .complete (Char.ofNat b)
  else if b < 0xC2 then .fault
  else if b < 0xE0 then .start (b - 0xC0) continuing []
  else if b = 0xE0 then .start 0 ⟨0xA0, 0xBF⟩ [continuing]
  else if b = 0xED then .start 0xD ⟨0x80, 0x9F⟩ [continuing]
  else if b < 0xF0 then .start (b - 0xE0) continuing [continuing]
  else if b = 0xF0 then .start 0 ⟨0x90, 0xBF⟩ [continuing, continuing]
  else if b < 0xF4 then .start (b - 0xF0) continuing [continuing, continuing]
  else if b = 0xF4 then .start 4 ⟨0x80, 0x8F⟩ [continuing, continuing]
  else .fault

/-- The beginning of a character: its bits so far and the bytes that it still needs. -/
structure Partly where
  bits : Nat
  next : ByteRange
  more : List ByteRange

/-- The characters and faults of the bytes that come after an unfinished character. -/
def decodeFrom : Option Partly → List Nat → List (Option Char)
  | none, [] => []
  | some _, [] => [none]
  | unfinished, b :: r =>
    match unfinished.filter (·.next.contains b) with
    | some p =>
      let bits := p.bits * 64 + (b - 0x80)
      match p.more with
      | [] => some (Char.ofNat bits) :: decodeFrom none r
      | next :: more => decodeFrom (some ⟨bits, next, more⟩) r
    | none =>
      let broken : List (Option Char) := if unfinished.isSome then [none] else []
      match lead b with
      | .complete c => broken ++ some c :: decodeFrom none r
      | .start bits next more => broken ++ decodeFrom (some ⟨bits, next, more⟩) r
      | .fault => broken ++ none :: decodeFrom none r

def decode (bytes : List Nat) : List (Option Char) := decodeFrom none bytes

/-- The text of the bytes, if they have no fault. -/
def text? (bytes : List Nat) : Option String :=
  let cs := decode bytes
  if cs.all (·.isSome) then some (String.ofList (cs.filterMap id)) else none

/-- The text of the bytes with a sign in the place of each fault. -/
def lossyText (bytes : List Nat) : String :=
  String.ofList ((decode bytes).map (·.getD '\uFFFD'))

end WrapperGen.Text.Utf8
