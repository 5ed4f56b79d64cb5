import JoinPipeline.Value

/-!
# Kinds of collections

The element types that a script can name. All but two of them are keyed: their elements are pairs
of a value, the key, and something else.
-/

namespace JoinPipeline.Script

/-- The type of values. -/
def anyValue : ElementType Atom := .base .value

/-- The type of keyed values. -/
def keyedValue : ElementType Atom := .pair anyValue anyValue

inductive Kind where
  | val
  | kv
  | kvec
  | inner
  | left
  | right
  | outer
  | cogroup
  | inner3
  | cogroup3
  | u32
  deriving DecidableEq, Repr

namespace Kind

def list : List Kind :=
  [val, kv, kvec, inner, left, right, outer, cogroup, inner3, cogroup3, u32]

def name : Kind → String
  | val => "val"
  | kv => "kv"
  | kvec => "kvec"
  | inner => "inner"
  | left => "left"
  | right => "right"
  | outer => "outer"
  | cogroup => "cogroup"
  | inner3 => "inner3"
  | cogroup3 => "cogroup3"
  | u32 => "u32"

def ofName? (s : String) : Option Kind := list.find? fun kind => kind.name = s

/-- The type behind the key, for the keyed kinds. -/
def payload? : Kind → Option (ElementType Atom)
  | val => none
  | kv => some anyValue
  | kvec => some (.vector anyValue)
  | inner => some (.pair anyValue anyValue)
  | left => some (.pair anyValue (.option anyValue))
  | right => some (.pair (.option anyValue) anyValue)
  | outer => some (.pair (.option anyValue) (.option anyValue))
  | cogroup => some (.pair (.vector anyValue) (.vector anyValue))
  | inner3 => some (.triple anyValue anyValue anyValue)
  | cogroup3 => some (.triple (.vector anyValue) (.vector anyValue) (.vector anyValue))
  | u32 => none

def element (kind : Kind) : ElementType Atom :=
  match kind.payload?, kind with
  | some payload, _ => .pair anyValue payload
  | none, u32 => .base .word32
  | none, _ => anyValue

/-- The types behind the keys of the keyed kinds. -/
def payloads : List (ElementType Atom) := list.filterMap payload?

end Kind

end JoinPipeline.Script
