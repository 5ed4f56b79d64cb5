import JoinPipeline.Options

/-!
# Options from an argument list

An argument sets the option when it is two dashes, one of the two spellings of the option's name,
an equals sign and a level. Every other argument is passed over. The last setting counts, and the
first one that is no level stops the reading.
-/

namespace JoinPipeline.Options

def chainCheckSpellings : List String := ["chainedCogroups", "chained-cogroups"]

/-- The option spelled out in an argument and the text after its first equals sign. -/
def setting? (argument : String) : Option (String × String) :=
  match argument.toList with
  | '-' :: '-' :: body =>
    let name := String.ofList (body.takeWhile (· ≠ '='))
    match body.dropWhile (· ≠ '=') with
    | [] => none
    | _ :: value =>
      if name ∈ chainCheckSpellings then some (name, String.ofList value) else none
  | _ => none

/-- The spelling whose value is no level, and why it is none. -/
structure ArgumentError where
  spelling : String
  cause : ChainCheck.Unknown
  deriving DecidableEq, Repr

def ArgumentError.message (e : ArgumentError) : String :=
  "invalid value for --" ++ e.spelling

def applyArgument (options : Options) (argument : String) : Except ArgumentError Options :=
  match setting? argument with
  | none => .ok options
  | some (spelling, value) =>
    match ChainCheck.parse value with
    | .ok level => .ok { options with chainCheck := level }
    | .error cause => .error ⟨spelling, cause⟩

def ofArguments (arguments : List String) : Except ArgumentError Options :=
  arguments.foldlM applyArgument {}

end JoinPipeline.Options
