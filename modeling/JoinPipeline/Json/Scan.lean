/-!
# Scanning a document

Pieces of a JSON text on its list of characters: blanks, literals, strings and whole values that
are only passed over. Every piece gives the text that is left. A text that goes wrong does so in
one of three ways, and the first of them on the way from left to right counts.
-/

namespace JoinPipeline.Json

/-- What is wrong with a document. -/
inductive Fault where
  /-- The text ends too early. -/
  | early
  /-- The text is no JSON at some place, or another sign than the reader needs stands there. -/
  | malformed
  /-- A piece of JSON of the wrong sort, with the reason. -/
  | misfit (reason : String)
  deriving DecidableEq, Repr

def isBlank (c : Char) : Bool := c = ' ' || c = '\n' || c = '\t' || c = '\r'

def dropBlanks (cs : List Char) : List Char := cs.dropWhile isBlank

theorem length_dropBlanks (cs : List Char) : (dropBlanks cs).length ≤ cs.length :=
  (List.dropWhile_suffix _).length_le

/-- The rest behind the given letters. -/
def literal : List Char → List Char → Except Fault (List Char)
  | [], cs => .ok cs
  | _ :: _, [] => .error .early
  | l :: ls, c :: cs => if l = c then literal ls cs else .error .malformed

theorem length_literal {ls cs r : List Char} (h : literal ls cs = .ok r) :
    r.length ≤ cs.length := by
  fun_induction literal ls cs with
  | case1 => simp_all
  | case2 => simp at h
  | case3 => have := ‹_ → _› h; simp only [List.length_cons]; omega
  | case4 => simp at h

def hexDigit? (c : Char) : Option Nat :=
  if c.isDigit then some (c.toNat - 48)
  else if 'a' ≤ c ∧ c ≤ 'f' then some (c.toNat - 87)
  else if 'A' ≤ c ∧ c ≤ 'F' then some (c.toNat - 55)
  else none

def hex4? (a b c d : Char) : Option Nat := do
  return (((← hexDigit? a) * 16 + (← hexDigit? b)) * 16 + (← hexDigit? c)) * 16 + (← hexDigit? d)

/-- An escape by number needs four bytes; with fewer of them left the text ends too early. -/
def cutHex (rest : List Char) : Fault :=
  if (String.ofList rest).utf8ByteSize < 4 then .early else .malformed

/-- The character that an escaped letter stands for. -/
def simpleEscape? : Char → Option Char
  | '"' => some '"'
  | '\\' => some '\\'
  | '/' => some '/'
  | 'b' => some '\x08'
  | 'f' => some '\x0c'
  | 'n' => some '\n'
  | 'r' => some '\r'
  | 't' => some '\t'
  | _ => none

def isControl (c : Char) : Bool := c.toNat < 0x20

/-- Passes over a string whose opening quote has been read. The numbers of escapes are not looked
at, so that half of a surrogate pair is no fault here. -/
def skipString : List Char → Except Fault (List Char)
  | [] => .error .early
  | '"' :: r => .ok r
  | '\\' :: 'u' :: a :: b :: c :: d :: r =>
    if (hex4? a b c d).isSome then skipString r else .error .malformed
  | '\\' :: 'u' :: r => .error (cutHex r)
  | '\\' :: c :: r => if (simpleEscape? c).isSome then skipString r else .error .malformed
  | '\\' :: [] => .error .early
  | c :: r => if isControl c then .error .malformed else skipString r

theorem length_skipString {cs r : List Char} (h : skipString cs = .ok r) :
    r.length < cs.length := by
  fun_induction skipString cs <;> simp_all <;> omega

def isHighSurrogate (n : Nat) : Bool := 0xD800 ≤ n && n ≤ 0xDBFF

def isLowSurrogate (n : Nat) : Bool := 0xDC00 ≤ n && n ≤ 0xDFFF

/-- The text of a string whose opening quote has been read, and the rest behind it. -/
def readString : List Char → Except Fault (List Char × List Char)
  | [] => .error .early
  | '"' :: r => .ok ([], r)
  | '\\' :: 'u' :: a :: b :: c :: d :: r =>
    match hex4? a b c d with
    | none => .error .malformed
    | some n =>
      if isLowSurrogate n then .error .malformed
      else if isHighSurrogate n then
        match r with
        | '\\' :: 'u' :: a' :: b' :: c' :: d' :: r' =>
          match hex4? a' b' c' d' with
          | none => .error .malformed
          | some n' =>
            if isLowSurrogate n' then do
              let (text, rest) ← readString r'
              return (Char.ofNat ((n - 0xD800) * 0x400 + (n' - 0xDC00) + 0x10000) :: text, rest)
            else .error .malformed
        | '\\' :: 'u' :: r' => .error (cutHex r')
        | '\\' :: [] => .error .early
        | [] => .error .early
        | _ => .error .malformed
      else do
        let (text, rest) ← readString r
        return (Char.ofNat n :: text, rest)
  | '\\' :: 'u' :: r => .error (cutHex r)
  | '\\' :: c :: r =>
    match simpleEscape? c with
    | none => .error .malformed
    | some e => do
      let (text, rest) ← readString r
      return (e :: text, rest)
  | '\\' :: [] => .error .early
  | c :: r =>
    if isControl c then .error .malformed
    else do
      let (text, rest) ← readString r
      return (c :: text, rest)

/-- Passes over one digit or more. A number that breaks off here is malformed. -/
def skipDigits : List Char → Except Fault (List Char)
  | [] => .error .malformed
  | c :: r => if c.isDigit then .ok (r.dropWhile Char.isDigit) else .error .malformed

/-- A whole part that starts with zero is this zero alone. -/
def skipWhole : List Char → Except Fault (List Char)
  | '0' :: r => if r.head?.any Char.isDigit then .error .malformed else .ok r
  | cs => skipDigits cs

def skipFraction : List Char → Except Fault (List Char)
  | '.' :: r => skipDigits r
  | cs => .ok cs

def dropSign : List Char → List Char
  | '+' :: r => r
  | '-' :: r => r
  | cs => cs

def skipExponent : List Char → Except Fault (List Char)
  | 'e' :: r => skipDigits (dropSign r)
  | 'E' :: r => skipDigits (dropSign r)
  | cs => .ok cs

/-- Passes over a number without its sign. -/
def skipNumber (cs : List Char) : Except Fault (List Char) :=
  skipWhole cs >>= skipFraction >>= skipExponent

inductive Bracket where
  | list
  | object
  deriving DecidableEq, Repr

def Bracket.closing : Bracket → Char
  | list => ']'
  | object => '\x7d'

/-- Passes over a colon. -/
def skipColon (cs : List Char) : Except Fault (List Char) :=
  match dropBlanks cs with
  | ':' :: r => .ok r
  | [] => .error .early
  | _ => .error .malformed

/-- Passes over a name and its colon in an object. -/
def skipName (cs : List Char) : Except Fault (List Char) :=
  match dropBlanks cs with
  | '"' :: r => skipString r >>= skipColon
  | [] => .error .early
  | _ => .error .malformed

/-- Passes over one value that is no list and no object. -/
def skipScalar (c : Char) (r : List Char) : Except Fault (List Char) :=
  if c = 'n' then literal "ull".toList r
  else if c = 't' then literal "rue".toList r
  else if c = 'f' then literal "alse".toList r
  else if c = '"' then skipString r
  else if c = '-' then skipNumber r
  else if c.isDigit then skipNumber (c :: r)
  else .error .malformed

end JoinPipeline.Json
