/-!
# Lines of bytes

A connection carries lines: the bytes of a text, ended by a line feed. `frame` writes a line and
`Lines.next` reads one. A reader takes off one carriage return before the line feed, and takes
what comes after the last line feed as a line of its own once no more bytes can come. A line
that is not valid UTF-8 cannot be read.
-/

namespace TriggerDesk.Wire

/-- The byte that ends a line. -/
def lineFeed : UInt8 := 10

/-- The byte that may stand before it. -/
def carriageReturn : UInt8 := 13

/-- The bytes of a text. -/
def bytesOf (text : String) : List UInt8 := text.toUTF8.data.toList

/-- The text of some bytes, if they are valid UTF-8. -/
def textOf? (bytes : List UInt8) : Option String := String.fromUTF8? ⟨bytes.toArray⟩

/-- A text as a line. -/
def frame (text : String) : List UInt8 := bytesOf text ++ [lineFeed]

/-- The bytes without a carriage return at the end. -/
def withoutReturn (bytes : List UInt8) : List UInt8 :=
  match bytes.getLast? with
  | some last => if last = carriageReturn then bytes.dropLast else bytes
  | none => bytes

/-- The bytes before the first line feed, and those after it. -/
def splitLine? (bytes : List UInt8) : Option (List UInt8 × List UInt8) :=
  match bytes.dropWhile (· ≠ lineFeed) with
  | [] => none
  | _ :: rest => some (bytes.takeWhile (· ≠ lineFeed), rest)

/-- Bytes on their way to a reader of lines. -/
structure Lines where
  bytes : List UInt8
  /-- Whether more bytes can come. -/
  isOpen : Bool
  deriving DecidableEq, Repr

/-- What a reader of lines finds. -/
inductive Lines.Next where
  /-- A line, and what comes after it. -/
  | line (text : String) (rest : Lines)
  /-- No line yet. -/
  | pending
  | ended
  /-- A line that is not valid UTF-8. -/
  | unreadable
  deriving DecidableEq, Repr

namespace Lines

/-- Bytes of a line as a text. -/
def nextOf (line : List UInt8) (rest : Lines) : Next :=
  match textOf? line with
  | some text => .line text rest
  | none => .unreadable

/-- What a reader finds. -/
def next (lines : Lines) : Next :=
  match splitLine? lines.bytes with
  | some (line, rest) => nextOf (withoutReturn line) { lines with bytes := rest }
  | none =>
    if lines.isOpen then .pending
    else if lines.bytes.isEmpty then .ended
    else nextOf lines.bytes { lines with bytes := [] }

/-- More bytes come. -/
def append (lines : Lines) (bytes : List UInt8) : Lines :=
  { lines with bytes := lines.bytes ++ bytes }

end Lines

/-- The rest after a line is shorter than the whole. -/
theorem length_lt_of_splitLine? {bytes line rest : List UInt8}
    (h : splitLine? bytes = some (line, rest)) : rest.length < bytes.length := by
  unfold splitLine? at h
  split at h
  · cases h
  · next heq =>
    cases h
    have hle : (bytes.dropWhile (· ≠ lineFeed)).length ≤ bytes.length :=
      (List.dropWhile_sublist _).length_le
    rw [heq] at hle
    exact hle

/-- All texts that can be read from some bytes, when no more come. Reading stops at a line that
is not valid UTF-8. -/
def readLines (bytes : List UInt8) : List String :=
  match _h : splitLine? bytes with
  | some (line, rest) =>
    match textOf? (withoutReturn line) with
    | some text => text :: readLines rest
    | none => []
  | none => if bytes.isEmpty then [] else (textOf? bytes).toList
termination_by bytes.length
decreasing_by exact length_lt_of_splitLine? _h

end TriggerDesk.Wire
