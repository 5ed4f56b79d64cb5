import JoinPipeline.Text.Blank
import JoinPipeline.Text.Quoted

/-!
# Options of a pipeline

A pipeline has one option: what to do with a join one of whose inputs is itself the outcome of a
co-group. It may be let through, warned about or refused. A level is read from a word without
regard to surrounding blanks and to the case of ASCII letters.
-/

namespace JoinPipeline

inductive ChainCheck where
  | off
  | warning
  | error
  deriving DecidableEq, Repr

namespace ChainCheck

instance : Inhabited ChainCheck := ⟨warning⟩

def name : ChainCheck → String
  | off => "off"
  | warning => "warning"
  | error => "error"

/-- The level with exactly this name. -/
def ofName? (s : String) : Option ChainCheck :=
  if s = "off" then some off
  else if s = "warning" then some warning
  else if s = "error" then some error
  else none

/-- A word that names no level, as it was compared. -/
structure Unknown where
  word : String
  deriving DecidableEq, Repr

def Unknown.message (u : Unknown) : String :=
  "unknown chained co-group check " ++ Text.quoted u.word ++ " (expected off, warning or error)"

/-- A text without its outer blanks and with ASCII letters in lower case. -/
def normalize (s : String) : String :=
  String.ofList ((Text.trim s.toList).map Char.toLower)

/-- Reads a level; `warn` is a short form of `warning`. -/
def parse (s : String) : Except Unknown ChainCheck :=
  let word := normalize s
  if word = "warn" then .ok warning
  else match ofName? word with
    | some level => .ok level
    | none => .error ⟨word⟩

end ChainCheck

structure Options where
  chainCheck : ChainCheck := .warning
  deriving DecidableEq, Repr

namespace Options

instance : Inhabited Options := ⟨{}⟩

/-- The name of the option in a document. -/
def chainCheckKey : String := "chained_cogroups"

end Options

end JoinPipeline
