import JoinPipeline.Text.Unprintable

/-!
# Quoted text

A text in double quotes in which the quote, the backslash and the usual control characters have
two-character forms and every other character without a glyph is named by its number. The same
module says how rows are shown in messages: integers in decimal, texts quoted, pairs in
parentheses and lists in brackets.
-/

namespace JoinPipeline.Text

/-- A character named by its number, in lower-case hexadecimal. -/
def named (c : Char) : List Char :=
  ['\\', 'u', '\x7b'] ++ Nat.toDigits 16 c.toNat ++ ['\x7d']

def escape (c : Char) : List Char :=
  if c = '"' then ['\\', '"']
  else if c = '\\' then ['\\', '\\']
  else if c = '\n' then ['\\', 'n']
  else if c = '\r' then ['\\', 'r']
  else if c = '\t' then ['\\', 't']
  else if c = '\x00' then ['\\', '0']
  else if isUnprintable c then named c
  else [c]

def quoted (s : String) : String :=
  String.ofList ('"' :: s.toList.flatMap escape ++ ['"'])

/-- How a row looks in a message. -/
class Shown (α : Type) where
  shown : α → String

export Shown (shown)

instance : Shown String := ⟨quoted⟩

instance : Shown Int64 := ⟨fun n => toString n.toInt⟩

instance {α γ : Type} [Shown α] [Shown γ] : Shown (α × γ) :=
  ⟨fun p => "(" ++ shown p.1 ++ ", " ++ shown p.2 ++ ")"⟩

instance {α : Type} [Shown α] : Shown (List α) :=
  ⟨fun rows => "[" ++ ", ".intercalate (rows.map shown) ++ "]"⟩

end JoinPipeline.Text
