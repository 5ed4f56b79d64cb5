import JoinPipeline.Json.Scan
import JoinPipeline.Decimal.Shortest

/-!
# Numbers of a document

A number without point and exponent that fits in 64 bits is a whole number; every other number is
a double. Digits are gathered into a 64-bit significand for as long as it does not overflow, and
the double is the significand, rounded, times or divided by one power of ten. A number too great
for a double is malformed, and here a number that breaks off is a text that ends too early.
-/

namespace JoinPipeline.Json

inductive Number where
  | whole (n : Int)
  | real (x : Float)

/-- A number as it is named in a message. -/
def Number.shown : Number → String
  | whole n => "integer `" ++ toString n ++ "`"
  | real x => "floating point `" ++ Decimal.Layout.plainToSixteen.double x ++ "`"

def digitValue (c : Char) : Nat := c.toNat - 48

/-- Adds digits to a significand until the next one would overflow 64 bits; the digits that are
left, and how many were taken. -/
def gather (significand taken : Nat) : List Char → Nat × Nat × List Char
  | [] => (significand, taken, [])
  | c :: r =>
    let next := significand * 10 + digitValue c
    if next < Nat.pow 2 64 then gather next (taken + 1) r else (significand, taken, c :: r)

/-- Divides by `10 ^ 308` until the power of ten that is left fits in a double. -/
def scaleDown (x : Float) (exponent : Nat) : Float :=
  if x == 0 then x
  else if exponent ≤ 308 then x / Float.ofScientific 1 false exponent
  else scaleDown (x / Float.ofScientific 1 false 308) (exponent - 308)
termination_by exponent

/-- The double `significand * 10 ^ exponent`, if it is finite. -/
def double? (significand : Nat) (exponent : Int) : Option Float :=
  let x := Float.ofNat significand
  if exponent < 0 then some (scaleDown x (-exponent).toNat)
  else if 308 < exponent then (if x == 0 then some x else none)
  else
    let y := x * Float.ofScientific 1 false exponent.toNat
    if y.isInf then none else some y

def signed (positive : Bool) (x : Float) : Float := if positive then x else -x

/-- The double of a number whose digits are read. -/
def finish (positive : Bool) (significand : Nat) (exponent : Int) : Except Fault Number :=
  match double? significand exponent with
  | some x => .ok (.real (signed positive x))
  | none => .error .malformed

/-- Greatest exponent that is told apart from greater ones. -/
def exponentLimit : Nat := Nat.pow 2 31 - 1

/-- Reads the digits of an exponent, whose letter has been read. -/
def readExponent (positive : Bool) (significand : Nat) (exponent : Int) (cs : List Char) :
    Except Fault Number :=
  let upward := cs.head? ≠ some '-'
  match dropSign cs with
  | [] => .error .early
  | c :: r =>
    if c.isDigit then
      let digits := (c :: r).takeWhile Char.isDigit
      let size := (digits.map digitValue).foldl (fun n d => min (n * 10 + d) (exponentLimit + 1)) 0
      if exponentLimit < size then
        if significand ≠ 0 ∧ upward then .error .malformed else .ok (.real (signed positive 0))
      else finish positive significand (if upward then exponent + size else exponent - size)
    else .error .malformed

/-- Reads the exponent, if there is one. -/
def readTail (positive : Bool) (significand : Nat) (exponent : Int) (cs : List Char) :
    Except Fault Number :=
  match cs with
  | 'e' :: r => readExponent positive significand exponent r
  | 'E' :: r => readExponent positive significand exponent r
  | _ => finish positive significand exponent

/-- Reads the digits behind the point, which has been read. -/
def readFraction (positive : Bool) (significand : Nat) (exponent : Int) (cs : List Char) :
    Except Fault Number :=
  match cs with
  | [] => .error .early
  | c :: _ =>
    if c.isDigit then
      let (gathered, taken, _) := gather significand 0 (cs.takeWhile Char.isDigit)
      readTail positive gathered (exponent - taken) (cs.dropWhile Char.isDigit)
    else .error .malformed

/-- A whole number that fits; below `-2 ^ 63`, and at zero with a minus, it becomes a double. -/
def wholeNumber (positive : Bool) (significand : Nat) : Number :=
  if positive then .whole significand
  else if 0 < significand ∧ significand ≤ Nat.pow 2 63 then .whole (-significand)
  else .real (-(Float.ofNat significand))

/-- Reads what follows the digits before the point. -/
def readBehindWhole (positive : Bool) (digits rest : List Char) : Except Fault Number :=
  let (significand, _, surplus) := gather 0 0 digits
  match rest with
  | '.' :: r => readFraction positive significand surplus.length r
  | 'e' :: r => readExponent positive significand surplus.length r
  | 'E' :: r => readExponent positive significand surplus.length r
  | _ =>
    if surplus.isEmpty then .ok (wholeNumber positive significand)
    else finish positive significand surplus.length

/-- Reads a number without its sign; nothing behind it is looked at. -/
def readNumber (positive : Bool) (cs : List Char) : Except Fault Number :=
  match cs with
  | [] => .error .early
  | '0' :: r =>
    if r.head?.any Char.isDigit then .error .malformed else readBehindWhole positive ['0'] r
  | c :: _ =>
    if c.isDigit then
      readBehindWhole positive (cs.takeWhile Char.isDigit) (cs.dropWhile Char.isDigit)
    else .error .malformed

end JoinPipeline.Json
