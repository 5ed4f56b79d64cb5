import JoinPipeline.Text.Quoted
import Std.Data.HashMap
import Std.Data.HashSet

/-!
# Checks on rows

Comparisons for tests of pipelines: two lists are equal in order, two lists hold the same rows the
same number of times, no key occurs twice, and how many rows a key has. A check that fails says
why, and its message shows the rows.
-/

namespace JoinPipeline.RowCheck

open Text (Shown shown)

variable {α κ ν : Type}

/-- The message of a comparison of two values that are not equal. -/
def unequal (explanation left right : String) : String :=
  "assertion `left == right` failed: " ++ explanation ++ "\n  left: " ++ left ++
    "\n right: " ++ right

/-- Why two lists are not equal in order. -/
inductive OrderMismatch (α : Type) where
  | length (expected actual : List α)
  | element (place : Nat) (expectedElement actualElement : α) (expected actual : List α)

def OrderMismatch.message [Shown α] : OrderMismatch α → String
  | length expected actual =>
    unequal ("Collection length mismatch:\n  Expected: " ++ shown expected ++
      "\n  Actual: " ++ shown actual) (toString actual.length) (toString expected.length)
  | element place expectedElement actualElement expected actual =>
    unequal ("Mismatch at index " ++ toString place ++ ":\n  Full expected: " ++ shown expected ++
      "\n  Full actual: " ++ shown actual) (shown actualElement) (shown expectedElement)

/-- The first place from `place` on at which two lists differ. -/
def firstDifference? [DecidableEq α] (place : Nat) : List α → List α → Option (Nat × α × α)
  | a :: as, b :: bs => if a = b then firstDifference? (place + 1) as bs else some (place, a, b)
  | _, _ => none

def sameOrder [DecidableEq α] (actual expected : List α) : Except (OrderMismatch α) Unit :=
  if actual.length ≠ expected.length then .error (.length expected actual)
  else match firstDifference? 0 actual expected with
    | none => .ok ()
    | some (place, a, e) => .error (.element place e a expected actual)

/-- Why two lists do not hold the same rows the same number of times. -/
inductive ContentMismatch (α : Type) where
  | count (expected actual : List α)
  | content (expectedSide actualSide : List α)

def ContentMismatch.message [Shown α] : ContentMismatch α → String
  | count expected actual =>
    unequal ("Row count mismatch:\n  Expected: " ++ toString expected.length ++
      "\n  Actual: " ++ toString actual.length ++ "\n  Expected rows: " ++ shown expected ++
      "\n  Actual rows: " ++ shown actual) (toString actual.length) (toString expected.length)
  | content expectedSide actualSide =>
    "Row content mismatch:\n  Rows with wrong multiplicity (expected side): " ++
      shown expectedSide ++ "\n  Rows with wrong multiplicity (actual side): " ++ shown actualSide

/-- How often every row occurs. The first one of rows that compare equal stands for all of them. -/
def counts [BEq α] [Hashable α] (rows : List α) : Std.HashMap α Nat :=
  rows.foldl (fun m row => m.insert (m.getKeyD row row) (m.getD row 0 + 1)) {}

/-- Whether two tables have as many rows as each other and count them alike. -/
def countAlike [BEq α] [Hashable α] (table other : Std.HashMap α Nat) : Bool :=
  table.size == other.size && table.toList.all fun entry => other[entry.1]? == some entry.2

/-- The rows that one table counts otherwise than another one does. -/
def differing [BEq α] [Hashable α] (table other : Std.HashMap α Nat) : List α :=
  (table.toList.filter fun entry => other[entry.1]? != some entry.2).map Prod.fst

def sameRows [BEq α] [Hashable α] (actual expected : List α) :
    Except (ContentMismatch α) Unit :=
  if actual.length ≠ expected.length then .error (.count expected actual)
  else if countAlike (counts actual) (counts expected) then .ok ()
  else
    .error (.content (differing (counts expected) (counts actual))
      (differing (counts actual) (counts expected)))

/-- A key that has occurred before. -/
structure RepeatedKey (κ : Type) where
  key : κ
  deriving DecidableEq, Repr

def RepeatedKey.message [Shown κ] (e : RepeatedKey κ) : String :=
  "Key " ++ shown e.key ++ " appears more than once"

/-- Goes through the rows with the keys seen so far. -/
def uniqueKeysFrom [BEq κ] [Hashable κ] (seen : Std.HashSet κ) :
    List (κ × ν) → Except (RepeatedKey κ) Unit
  | [] => .ok ()
  | row :: rows =>
    if seen.contains row.1 then .error ⟨row.1⟩ else uniqueKeysFrom (seen.insert row.1) rows

def uniqueKeys [BEq κ] [Hashable κ] (rows : List (κ × ν)) : Except (RepeatedKey κ) Unit :=
  uniqueKeysFrom {} rows

/-- Counts one more row of a key in a table with ascending keys. -/
def countKey (compare : κ → κ → Ordering) (key : κ) : List (κ × Nat) → List (κ × Nat)
  | [] => [(key, 1)]
  | entry :: table =>
    match compare key entry.1 with
    | .lt => (key, 1) :: entry :: table
    | .eq => (entry.1, entry.2 + 1) :: table
    | .gt => entry :: countKey compare key table

/-- The number of rows of every key, in ascending order of the keys. -/
def rowsPerKey (compare : κ → κ → Ordering) (rows : List (κ × ν)) : List (κ × Nat) :=
  rows.foldl (fun table row => countKey compare row.1 table) []

end JoinPipeline.RowCheck
