import JoinPipeline.Options
import JoinPipeline.Json.Skip
import JoinPipeline.Json.Number

/-!
# Options as a document

Options are written as a JSON object with one field. They are read from an object, in which other
fields are passed over, or from a list of the fields in order; a level is its name, or an object
with this name alone and null behind it. The first fault from the left is the one reported, so a
piece of the wrong sort hides everything behind it.
-/

namespace JoinPipeline.Options

open Json (Fault dropBlanks literal readString readNumber skipColon skipValue)

def document (options : Options) : String :=
  "\x7b\"" ++ chainCheckKey ++ "\":\"" ++ options.chainCheck.name ++ "\"\x7d"

/-- The fault of a value that stands where something else is expected. -/
def misplaced (cs : List Char) (expected : String) : Fault :=
  let sort : Except Fault String :=
    match cs with
    | 'n' :: r => (literal "ull".toList r).map fun _ => "null"
    | 't' :: r => (literal "rue".toList r).map fun _ => "boolean `true`"
    | 'f' :: r => (literal "alse".toList r).map fun _ => "boolean `false`"
    | '-' :: r => (readNumber false r).map Json.Number.shown
    | '"' :: r => (readString r).map fun s => "string " ++ Text.quoted (String.ofList s.1)
    | '[' :: _ => .ok "sequence"
    | '\x7b' :: _ => .ok "map"
    | c :: _ =>
      if c.isDigit then (readNumber true cs).map Json.Number.shown else .error .malformed
    | [] => .error .early
  match sort with
  | .ok found => .misfit ("invalid type: " ++ found ++ ", expected " ++ expected)
  | .error fault => fault

/-- A level by its name, which is a string whose opening quote has been read. -/
def readLevelName (cs : List Char) : Except Fault (ChainCheck × List Char) := do
  let (text, rest) ← readString cs
  let name := String.ofList text
  match ChainCheck.ofName? name with
  | some level => return (level, rest)
  | none =>
    throw (.misfit ("unknown variant `" ++ name ++
      "`, expected one of `off`, `warning`, `error`"))

/-- Null, and nothing else. -/
def readNull (cs : List Char) : Except Fault (List Char) :=
  match dropBlanks cs with
  | [] => .error .early
  | 'n' :: r => literal "ull".toList r
  | cs => .error (misplaced cs "unit")

/-- A level as an object, whose opening brace has been read; it has to go on with the quote of a
name. -/
def readLevelObject (cs : List Char) : Except Fault (ChainCheck × List Char) :=
  match dropBlanks cs with
  | [] => .error .early
  | '"' :: r => do
    let (level, rest) ← readLevelName r
    let rest ← skipColon rest
    let rest ← readNull rest
    match dropBlanks rest with
    | '\x7d' :: rest => return (level, rest)
    | [] => throw .early
    | _ => throw .malformed
  | _ => .error .malformed

def readLevel (cs : List Char) : Except Fault (ChainCheck × List Char) :=
  match dropBlanks cs with
  | '"' :: r => readLevelName r
  | '\x7b' :: r => readLevelObject r
  | [] => .error .early
  | _ => .error .malformed

/-- One field, whose opening quote has been read: the level if it is the known one. -/
def readField (found : Option ChainCheck) (cs : List Char) :
    Except Fault (Option ChainCheck × List Char) := do
  let (text, rest) ← readString cs
  if String.ofList text = chainCheckKey then
    if found.isSome then
      throw (.misfit ("duplicate field `" ++ chainCheckKey ++ "`"))
    let rest ← skipColon rest
    let (level, rest) ← readLevel rest
    return (some level, rest)
  else
    let rest ← skipColon rest
    let rest ← skipValue rest
    return (found, rest)

/-- The fields of an object up to its closing brace. Every field takes at least one character, so
the length of the text bounds their number. -/
def readFields (fuel : Nat) (isFirst : Bool) (found : Option ChainCheck) (cs : List Char) :
    Except Fault (Option ChainCheck × List Char) :=
  match fuel with
  | 0 => .error .early
  | fuel + 1 =>
    let name := fun (cs : List Char) =>
      match cs with
      | '"' :: r => do
        let (found, rest) ← readField found r
        readFields fuel false found rest
      | [] => .error .early
      | _ => .error .malformed
    match dropBlanks cs with
    | [] => .error .early
    | '\x7d' :: r => .ok (found, r)
    | c :: r =>
      if isFirst then name (c :: r)
      else if c = ',' then name (dropBlanks r)
      else .error .malformed

def readObject (cs : List Char) : Except Fault (Options × List Char) := do
  let (found, rest) ← readFields (cs.length + 1) true none cs
  return (⟨found.getD default⟩, rest)

/-- Options as a list, whose opening bracket has been read. -/
def readList (cs : List Char) : Except Fault (Options × List Char) :=
  match dropBlanks cs with
  | [] => .error .early
  | ']' :: r => .ok ({}, r)
  | cs => do
    let (level, rest) ← readLevel cs
    match dropBlanks rest with
    | ']' :: rest => return (⟨level⟩, rest)
    | [] => throw .early
    | _ => throw .malformed

/-- Reads options from a document, behind which only blanks may follow. -/
def ofDocument (text : String) : Except Fault Options := do
  let (options, rest) ← match dropBlanks text.toList with
    | [] => .error .early
    | '[' :: r => readList r
    | '\x7b' :: r => readObject r
    | cs => .error (misplaced cs "struct PipelineOptions")
  if (dropBlanks rest).isEmpty then return options else throw .malformed

end JoinPipeline.Options
