/-!
# Lines and bytes of a text

A line ends at a line feed, together with a carriage return right before it; behind the last line
feed there is a line only if some text is left. Bytes are decoded as UTF-8, and every longest
stretch that starts like a character but is none becomes the replacement character.
-/

namespace JoinPipeline.Text

def replacement : Char := '\uFFFD'

/-- How a first byte goes on: its bits, the number of bytes to follow, and the range of the first
of them. -/
structure Lead where
  bits : Nat
  following : Nat
  low : UInt8 := 0x80
  high : UInt8 := 0xBF

def lead? (b : UInt8) : Option Lead :=
  if b < 0x80 then some ⟨b.toNat, 0, 0x80, 0xBF⟩
  else if 0xC2 ≤ b ∧ b ≤ 0xDF then some ⟨b.toNat - 0xC0, 1, 0x80, 0xBF⟩
  else if b = 0xE0 then some ⟨0, 2, 0xA0, 0xBF⟩
  else if b = 0xED then some ⟨0xD, 2, 0x80, 0x9F⟩
  else if 0xE1 ≤ b ∧ b ≤ 0xEF then some ⟨b.toNat - 0xE0, 2, 0x80, 0xBF⟩
  else if b = 0xF0 then some ⟨0, 3, 0x90, 0xBF⟩
  else if 0xF1 ≤ b ∧ b ≤ 0xF3 then some ⟨b.toNat - 0xF0, 3, 0x80, 0xBF⟩
  else if b = 0xF4 then some ⟨4, 3, 0x80, 0x8F⟩
  else none

/-- A character that is being read: the bits so far, and how many bytes are to follow. -/
structure Pending where
  bits : Nat
  following : Nat
  low : UInt8
  high : UInt8

/-- Starts a character with a byte: the text that is complete with it, and what is pending. -/
def start (b : UInt8) : List Char × Option Pending :=
  match lead? b with
  | none => ([replacement], none)
  | some l =>
    if l.following = 0 then ([Char.ofNat l.bits], none)
    else ([], some ⟨l.bits, l.following, l.low, l.high⟩)

/-- Takes one byte more. A byte that does not fit ends the pending stretch and starts anew. -/
def takeByte (pending : Option Pending) (b : UInt8) : List Char × Option Pending :=
  match pending with
  | none => start b
  | some p =>
    if p.low ≤ b ∧ b ≤ p.high then
      let bits := p.bits * 0x40 + (b.toNat - 0x80)
      if p.following ≤ 1 then ([Char.ofNat bits], none)
      else ([], some ⟨bits, p.following - 1, 0x80, 0xBF⟩)
    else
      let (text, next) := start b
      (replacement :: text, next)

def decodeFrom (pending : Option Pending) : List UInt8 → List Char
  | [] => if pending.isSome then [replacement] else []
  | b :: bs =>
    let (text, next) := takeByte pending b
    text ++ decodeFrom next bs

def decode (bytes : List UInt8) : List Char := decodeFrom none bytes

/-- A line that was ended by a line feed loses one carriage return at its end. -/
def dropReturn (line : List Char) : List Char :=
  if line.getLast? = some '\r' then line.dropLast else line

/-- The lines of a text, the first of which has already begun with `begun`. -/
def linesFrom (begun : List Char) : List Char → List (List Char)
  | [] => if begun.isEmpty then [] else [begun.reverse]
  | c :: cs =>
    if c = '\n' then dropReturn begun.reverse :: linesFrom [] cs
    else linesFrom (c :: begun) cs

def lines (text : List Char) : List (List Char) := linesFrom [] text

/-- Whether a text stands somewhere inside another one. -/
def occursIn (needle : List Char) : List Char → Bool
  | [] => needle.isEmpty
  | c :: cs => needle.isPrefixOf (c :: cs) || occursIn needle cs

end JoinPipeline.Text
