import JoinPipeline.Text.Lines

/-!
# Captured log text

A capture is a buffer of bytes to which any number of writers append. It is read back as text, and
its lines can be searched. A warning is counted by the level word with a blank on either side.
-/

namespace JoinPipeline.Log

structure Capture where
  bytes : ByteArray := .empty

namespace Capture

def write (c : Capture) (data : ByteArray) : Capture := ⟨c.bytes ++ data⟩

def writeText (c : Capture) (s : String) : Capture := c.write s.toUTF8

def text (c : Capture) : List Char := Text.decode c.bytes.toList

def contents (c : Capture) : String := String.ofList c.text

def lines (c : Capture) : List (List Char) := Text.lines c.text

/-- The number of lines in which the given text occurs. -/
def linesContaining (c : Capture) (needle : String) : Nat :=
  c.lines.countP (Text.occursIn needle.toList)

/-- The level word with a blank on either side. -/
def warningMark : String := " WARN "

/-- A line counts as a warning wherever the mark stands in it. -/
def isWarning (line : List Char) : Bool := Text.occursIn warningMark.toList line

def warnings (c : Capture) : Nat := c.linesContaining warningMark

end Capture

end JoinPipeline.Log
