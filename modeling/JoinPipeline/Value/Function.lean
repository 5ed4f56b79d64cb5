import JoinPipeline.Value
import JoinPipeline.Text.Blank

/-!
# Functions on values

A small language of total functions, tests and spreads on values, for transforms that are written
down as data. A function leaves alone every value of a sort that it does not work on.
-/

namespace JoinPipeline.Value

inductive Function where
  | identity
  | add (n : Int64)
  | mul (n : Int64)
  | mod (n : Int64)
  | len
  | upper
  | field (i : Int)
  | sum
  | sort
  | wrap
  | const (v : Value)
  /-- The list of what several functions give. -/
  | list (fs : List Function)
  /-- Several functions one after another. -/
  | chain (fs : List Function)

def modulo (n m : Int64) : Value :=
  if m ≤ 0 then .null else .int (Int64.ofInt (n.toInt % m.toInt))

def length : Value → Nat
  | .text s => s.length
  | .list vs => vs.length
  | _ => 0

def item (i : Int) : Value → Value
  | .list vs => if i < 0 then .null else vs.getD i.toNat .null
  | _ => .null

/-- The sum of the integers among values, modulo 2 to the 64. -/
def total (vs : List Value) : Int64 :=
  (vs.filterMap fun
    | .int n => some n
    | _ => none).foldl (· + ·) 0

def ascending (vs : List Value) : List Value :=
  vs.mergeSort fun a b => (compare a b).isLE

mutual

def Function.apply : Function → Value → Value
  | .identity, v => v
  | .add m, .int n => .int (n + m)
  | .mul m, .int n => .int (n * m)
  | .mod m, .int n => modulo n m
  | .len, v => .int (Int64.ofNat v.length)
  | .upper, .text s => .text (String.ofList (s.toList.map Char.toUpper))
  | .field i, v => item i v
  | .sum, .list vs => .int (total vs)
  | .sort, .list vs => .list (ascending vs)
  | .wrap, v => .present v
  | .const v, _ => v
  | .list fs, v => .list (Function.applyEach fs v)
  | .chain fs, v => Function.applyChain fs v
  | _, v => v

def Function.applyEach : List Function → Value → List Value
  | [], _ => []
  | f :: fs, v => f.apply v :: Function.applyEach fs v

def Function.applyChain : List Function → Value → Value
  | [], v => v
  | f :: fs, v => Function.applyChain fs (f.apply v)

end

inductive Test where
  | all
  | none
  | greater (v : Value)
  | less (v : Value)
  | equal (v : Value)
  | even
  | not (p : Test)
  /-- A test of what a function gives. -/
  | after (f : Function) (p : Test)

def Test.holds : Test → Value → Bool
  | all, _ => true
  | none, _ => false
  | greater v, x => compare x v == .gt
  | less v, x => compare x v == .lt
  | equal v, x => x = v
  | even, .int n => n % 2 == 0
  | even, _ => false
  | not p, x => !p.holds x
  | after f p, x => p.holds (f.apply x)

/-- Functions from a value to any number of values. -/
inductive Spread where
  | none
  | times (n : Nat)
  | items
  | words
  | range
  | calls (fs : List Function)

/-- The greatest number of values that `range` gives. -/
def rangeLimit : Int := 1000

def Spread.apply : Spread → Value → List Value
  | none, _ => []
  | times n, v => List.replicate n v
  | items, .list vs => vs
  | words, .text s => (Text.words s.toList).map fun word => .text (String.ofList word)
  | range, .int n =>
    (List.range (min n.toInt rangeLimit).toNat).map fun i => .int (Int64.ofNat i)
  | calls fs, v => Function.applyEach fs v
  | _, _ => []

end JoinPipeline.Value
