/-!
# Shortest decimal text of a double

A positive double is `m * 2 ^ q`, and every real nearer to it than to its neighbours reads back as
the same double. Of the decimals in that interval those with the fewest digits are looked for,
first with one digit, then with two, and of the two grid points around the double the nearer one
is taken. All of it is exact arithmetic on natural numbers. How the digits and the exponent are
laid out as text is a separate record of choices.
-/

namespace JoinPipeline.Decimal

/-- A positive fraction. -/
structure Fraction where
  num : Nat
  den : Nat

/-- `n * b ^ e`. -/
def Fraction.scaled (n b : Nat) (e : Int) : Fraction :=
  if 0 ≤ e then ⟨n * b.pow e.toNat, 1⟩ else ⟨n, b.pow (-e).toNat⟩

def Fraction.lt (x y : Fraction) : Bool := x.num * y.den < y.num * x.den

def Fraction.le (x y : Fraction) : Bool := x.num * y.den ≤ y.num * x.den

/-- `x / y`, rounded down. -/
def Fraction.floorDiv (x y : Fraction) : Nat := x.num * y.den / (x.den * y.num)

/-- The number `e` with `10 ^ e ≤ x < 10 ^ (e + 1)`. -/
def Fraction.magnitude (x : Fraction) : Int :=
  if x.den ≤ x.num then ((Nat.toDigits 10 (x.num / x.den)).length : Int) - 1
  else -(((List.range 400).find? fun j => x.den ≤ x.num * Nat.pow 10 j).getD 400 : Int)

/-- The reals that round to a double; its two ends belong to it when `closed`. -/
structure Interval where
  low : Fraction
  value : Fraction
  high : Fraction
  closed : Bool

def Interval.contains (i : Interval) (x : Fraction) : Bool :=
  if i.closed then i.low.le x && x.le i.high else i.low.lt x && x.lt i.high

/-- The interval of `m * 2 ^ q`; below a power of two the neighbour is only half as far. -/
def Interval.of (m : Nat) (q : Int) : Interval where
  low := .scaled (if m = Nat.pow 2 52 ∧ -1074 < q then 4 * m - 1 else 4 * m - 2) 2 (q - 2)
  value := .scaled m 2 q
  high := .scaled (4 * m + 2) 2 (q - 2)
  closed := m % 2 == 0

/-- `digits * 10 ^ exponent`. -/
structure Digits where
  digits : Nat
  exponent : Int
  deriving DecidableEq, Repr

def Digits.value (d : Digits) : Fraction := .scaled d.digits 10 d.exponent

/-- The same number without zeros at the end of its digits. -/
def Digits.trimmed (d : Digits) : Digits :=
  if 10 ≤ d.digits ∧ d.digits % 10 = 0 then trimmed ⟨d.digits / 10, d.exponent + 1⟩ else d
termination_by d.digits
decreasing_by omega

/-- The point of the grid of `10 ^ e` in the interval that is nearest to its value, if one is. -/
def Interval.nearest? (i : Interval) (e : Int) : Option Digits :=
  let k := i.value.floorDiv (.scaled 1 10 e)
  let below : Digits := ⟨k, e⟩
  let above : Digits := ⟨k + 1, e⟩
  let middle := Fraction.scaled (2 * k + 1) 10 e
  let twice : Fraction := ⟨2 * i.value.num, i.value.den⟩
  match i.contains below.value, i.contains above.value with
  | true, true =>
    some (if twice.lt middle || (twice.le middle && k % 2 == 0) then below else above)
  | true, false => some below
  | false, true => some above
  | false, false => none

/-- Seventeen digits always suffice. A grid point above the double can be the next power of ten,
whose zeros are not digits of it. -/
def Interval.shortest (i : Interval) : Digits :=
  let e := i.value.magnitude
  let grids := (List.range 17).map fun (n : Nat) => e - n
  ((grids.findSome? i.nearest?).getD ⟨0, 0⟩).trimmed

/-- Choices of a layout: between which powers of ten the point is written in its place, and what
stands before a positive and before a negative exponent otherwise. -/
structure Layout where
  leastPlain : Int
  greatestPlain : Int
  upward : String
  downward : String

/-- Up to sixteen digits before the point and up to four zeros after it are written out, and a
whole number keeps one zero after the point. An exponent has its sign. -/
def Layout.plainToSixteen : Layout := ⟨-4, 16, "e+", "e-"⟩

/-- Text of positive digits; `point` is the number of digits before the decimal point. -/
def Layout.render (l : Layout) (d : Digits) : String :=
  let text := Nat.toDigits 10 d.digits
  let point : Int := text.length + d.exponent
  if 0 ≤ d.exponent ∧ point ≤ l.greatestPlain then
    String.ofList (text ++ List.replicate d.exponent.toNat '0' ++ ['.', '0'])
  else if 0 < point ∧ point ≤ l.greatestPlain then
    String.ofList (text.take point.toNat ++ ['.'] ++ text.drop point.toNat)
  else if l.leastPlain ≤ point ∧ point ≤ 0 then
    String.ofList (['0', '.'] ++ List.replicate (-point).toNat '0' ++ text)
  else
    let lead := text.take 1
    let rest := text.drop 1
    String.ofList (lead ++ (if rest.isEmpty then [] else '.' :: rest)) ++
      (if 0 < point then l.upward else l.downward) ++ toString (point - 1).natAbs

/-- Text of a finite double. -/
def Layout.double (l : Layout) (x : Float) : String :=
  let bits : Nat := x.toBits.toNat
  let sign := if bits / Nat.pow 2 63 = 1 then "-" else ""
  let field : Nat := bits / Nat.pow 2 52 % Nat.pow 2 11
  let fraction : Nat := bits % Nat.pow 2 52
  let m : Nat := if field = 0 then fraction else Nat.pow 2 52 + fraction
  let q : Int := (if field = 0 then (1 : Int) else (field : Int)) - 1075
  if m = 0 then sign ++ "0.0" else sign ++ l.render (Interval.of m q).shortest

end JoinPipeline.Decimal
