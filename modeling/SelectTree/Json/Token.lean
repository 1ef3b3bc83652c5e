import SelectTree.Json.Number

/-!
# Tokens of JSON text

A text is cut into tokens before it is read as a value: brackets, separators, literal names, numbers
and strings. The cutter walks the characters once and remembers only the token it is inside of.
Space, tab, line feed and carriage return may stand between tokens.
-/

namespace SelectTree.Json

/-- A token of JSON text. -/
inductive Token where
  | beginArray
  | endArray
  | beginObject
  | endObject
  | nameSeparator
  | valueSeparator
  | null
  | bool (value : Bool)
  | number (value : Number)
  | string (text : String)
deriving DecidableEq

namespace Token

/-! ## String bodies -/

/-- A piece of a string body: a character, or a 16-bit unit given by its hexadecimal escape. -/
inductive Piece where
  | char (c : Char)
  | unit (value : Nat)

/-- The value of a hexadecimal digit, in either case. -/
def hexDigit? (c : Char) : Option Nat :=
  if '0' ≤ c ∧ c ≤ '9' then some (c.toNat - '0'.toNat)
  else if 'a' ≤ c ∧ c ≤ 'f' then some (c.toNat - 'a'.toNat + 10)
  else if 'A' ≤ c ∧ c ≤ 'F' then some (c.toNat - 'A'.toNat + 10)
  else none

/-- The 16-bit unit written by four hexadecimal digits. -/
def hexUnit? (a b c d : Char) : Option Nat := do
  let a ← hexDigit? a
  let b ← hexDigit? b
  let c ← hexDigit? c
  let d ← hexDigit? d
  return ((a * 16 + b) * 16 + c) * 16 + d

/-- The character that a backslash and `c` stand for. -/
def shortEscape? (c : Char) : Option Char :=
  match c with
  | '"' => some '"'
  | '\\' => some '\\'
  | '/' => some '/'
  | 'b' => some '\x08'
  | 'f' => some '\x0c'
  | 'n' => some '\n'
  | 'r' => some '\r'
  | 't' => some '\t'
  | _ => none

/-- Cuts a string body into pieces. A control character must be escaped. -/
def pieces? : List Char → Option (List Piece)
  | [] => some []
  | '\\' :: 'u' :: a :: b :: c :: d :: rest => do
    let value ← hexUnit? a b c d
    let rest ← pieces? rest
    return .unit value :: rest
  | '\\' :: c :: rest => do
    let c ← shortEscape? c
    let rest ← pieces? rest
    return .char c :: rest
  | c :: rest =>
    if c = '\\' ∨ c < ' ' then none
    else (pieces? rest).map (.char c :: ·)

/-- Whether a unit is the first half of a pair. -/
def isLead (value : Nat) : Bool :=
  0xD800 ≤ value && value < 0xDC00

/-- Whether a unit is the second half of a pair. -/
def isTrail (value : Nat) : Bool :=
  0xDC00 ≤ value && value < 0xE000

/-- The character that a pair of units stands for. -/
def pairChar (lead trail : Nat) : Char :=
  Char.ofNat (0x10000 + (lead - 0xD800) * 0x400 + (trail - 0xDC00))

/-- Joins pieces to characters. The halves of a pair must stand next to each other. -/
def joinPieces? : List Piece → Option (List Char)
  | [] => some []
  | .char c :: rest => (joinPieces? rest).map (c :: ·)
  | .unit lead :: .unit trail :: rest =>
    if isLead lead then
      if isTrail trail then (joinPieces? rest).map (pairChar lead trail :: ·) else none
    else if isTrail lead then none
    else (joinPieces? (.unit trail :: rest)).map (Char.ofNat lead :: ·)
  | .unit value :: rest =>
    if isLead value || isTrail value then none
    else (joinPieces? rest).map (Char.ofNat value :: ·)

/-- The text that a string body stands for. -/
def stringOfBody? (body : List Char) : Option String := do
  let pieces ← pieces? body
  let text ← joinPieces? pieces
  return String.ofList text

/-! ## Literal names -/

/-- The token that a literal name stands for. -/
def ofName? (name : List Char) : Option Token :=
  if name = "null".toList then some .null
  else if name = "true".toList then some (.bool true)
  else if name = "false".toList then some (.bool false)
  else none

/-! ## Cutting -/

/-- What the cutter is inside of, with the characters taken so far, last one first. -/
inductive Mode where
  /-- Between tokens. -/
  | gap
  /-- Inside a literal name. -/
  | name (taken : List Char)
  /-- Inside a number. -/
  | number (taken : List Char)
  /-- Inside a string, after its opening quote. -/
  | string (taken : List Char)
  /-- Inside a string, right after a backslash. -/
  | escape (taken : List Char)

/-- The cutter: the tokens found so far, last one first, and the mode. -/
structure Cutter where
  found : List Token := []
  mode : Mode := .gap

/-- The space that may stand between tokens. -/
def isBlank (c : Char) : Bool :=
  c == ' ' || c == '\t' || c == '\n' || c == '\r'

/-- The characters that numbers are made of. -/
def isNumeric (c : Char) : Bool :=
  c.isDigit || c == '-' || c == '+' || c == '.' || c == 'e' || c == 'E'

/-- The token that a single character stands for. -/
def punctuation? (c : Char) : Option Token :=
  match c with
  | '[' => some .beginArray
  | ']' => some .endArray
  | '\x7b' => some .beginObject
  | '\x7d' => some .endObject
  | ':' => some .nameSeparator
  | ',' => some .valueSeparator
  | _ => none

/-- A step between tokens, after the tokens `found`. -/
def stepGap (found : List Token) (c : Char) : Option Cutter :=
  if isBlank c then some ⟨found, .gap⟩
  else if c = '"' then some ⟨found, .string []⟩
  else if c.isDigit || c == '-' then some ⟨found, .number [c]⟩
  else if c.isLower then some ⟨found, .name [c]⟩
  else (punctuation? c).map fun token => ⟨token :: found, .gap⟩

/-- One step of the cutter. A name or a number ends before the first character that is none of its
own. -/
def Cutter.step (cutter : Cutter) (c : Char) : Option Cutter :=
  match cutter.mode with
  | .gap => stepGap cutter.found c
  | .name taken =>
    if c.isLower then some { cutter with mode := .name (c :: taken) }
    else (ofName? taken.reverse).bind fun token => stepGap (token :: cutter.found) c
  | .number taken =>
    if isNumeric c then some { cutter with mode := .number (c :: taken) }
    else (Number.ofChars? taken.reverse).bind fun n => stepGap (.number n :: cutter.found) c
  | .string taken =>
    if c = '"' then
      (stringOfBody? taken.reverse).map fun text => ⟨.string text :: cutter.found, .gap⟩
    else if c = '\\' then some { cutter with mode := .escape (c :: taken) }
    else some { cutter with mode := .string (c :: taken) }
  | .escape taken => some { cutter with mode := .string (c :: taken) }

/-- Runs the cutter over a text. -/
def Cutter.run (cutter : Cutter) : List Char → Option Cutter
  | [] => some cutter
  | c :: rest =>
    match cutter.step c with
    | none => none
    | some next => next.run rest

/-- The tokens at the end of the text. A string must have ended before. -/
def Cutter.finish? (cutter : Cutter) : Option (List Token) :=
  match cutter.mode with
  | .gap => some cutter.found.reverse
  | .name taken => (ofName? taken.reverse).map fun token => (token :: cutter.found).reverse
  | .number taken =>
    (Number.ofChars? taken.reverse).map fun n => (.number n :: cutter.found).reverse
  | .string _ | .escape _ => none

/-- The tokens of a text, if it is made of tokens. -/
def ofChars? (text : List Char) : Option (List Token) :=
  (Cutter.run {} text).bind Cutter.finish?

end Token

end SelectTree.Json
