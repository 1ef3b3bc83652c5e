import SelectTree.Json.Basic

/-!
# Number texts

Reading a JSON number from its characters. The grammar is the strict one: an optional minus, digits
without a leading zero, an optional fraction, an optional exponent. An integer that fits neither a
signed nor an unsigned 64-bit word, and a negative zero, are read as reals; a real whose magnitude
leaves the range of a 64-bit binary float is refused.
-/

namespace SelectTree.Json.Number

/-! ## Magnitude -/

/-- The value of a list of decimal digits. -/
def digitsValue (digits : List Char) : Nat :=
  Nat.ofDigitChars 10 digits 0

/-- `n` rounded to 53 significant binary digits, a tie going to the even neighbour. -/
def roundToDouble (n : Nat) : Nat :=
  let extra := n.log2 + 1 - 53
  let kept := n >>> extra
  let unit := 1 <<< extra
  let lost := n % unit
  let up := unit < 2 * lost ∨ (unit = 2 * lost ∧ kept % 2 = 1)
  (if up then kept + 1 else kept) <<< extra

/-- The least magnitude that rounds to infinity: half a unit above the largest finite double. -/
def doubleLimit : Nat :=
  (1 <<< 1024) - (1 <<< 970)

/-- The number that the leading digits form while it fits 64 bits, continuing from `start`, and how
many digits are left over. -/
def leadingDigits (start : Nat) : List Char → Nat × Nat
  | [] => (start, 0)
  | c :: rest =>
    let next := 10 * start + (c.toNat - '0'.toNat)
    if next < UInt64.size then leadingDigits next rest else (start, rest.length + 1)

/-- Whether `digits · 10 ^ exponent` stays finite as a double. The leading digits and the power of
ten are each rounded before they are multiplied. -/
def isFinite (digits : List Char) (exponent : Int) : Bool :=
  let (significand, dropped) := leadingDigits 0 digits
  let power := exponent + dropped
  significand = 0 || power ≤ 0 ||
    power ≤ 308 && roundToDouble significand * roundToDouble (Nat.pow 10 power.toNat) < doubleLimit

/-! ## Grammar -/

/-- Splits off the leading digits. -/
def spanDigits (text : List Char) : List Char × List Char :=
  (text.takeWhile Char.isDigit, text.dropWhile Char.isDigit)

/-- Whether digits may stand before the point: at least one, and no zero in front of others. -/
def isWhole : List Char → Bool
  | [] => false
  | ['0'] => true
  | c :: _ => c != '0'

/-- The digits after a point, if there is one, and the rest. A point without digits is refused. -/
def fraction? (text : List Char) : Option (Option (List Char) × List Char) :=
  match text with
  | '.' :: rest =>
    match spanDigits rest with
    | ([], _) => none
    | (digits, rest) => some (some digits, rest)
  | _ => some (none, text)

/-- The exponent that ends a number, if there is one. Nothing may follow it. -/
def exponent? (text : List Char) : Option (Option Int) :=
  match text with
  | [] => some none
  | mark :: rest =>
    if mark = 'e' ∨ mark = 'E' then
      let (negative, rest) :=
        match rest with
        | '-' :: rest => (true, rest)
        | '+' :: rest => (false, rest)
        | _ => (false, rest)
      match spanDigits rest with
      | ([], _) | (_, _ :: _) => none
      | (digits, []) =>
        let n : Int := digitsValue digits
        some (some (if negative then -n else n))
    else none

/-- A real number with the given digits, if a double can hold its magnitude. -/
def real? (negative : Bool) (digits : List Char) (exponent : Int) : Option Number :=
  if isFinite digits exponent then some (.real negative (digitsValue digits) exponent) else none

/-- A number without fraction and exponent. -/
def integer? (negative : Bool) (digits : List Char) : Option Number :=
  let magnitude := digitsValue digits
  let value : Int := if negative then -magnitude else magnitude
  if negative && magnitude = 0 then real? negative digits 0
  else if Int64.minValue.toInt ≤ value ∧ value < UInt64.size then some (.int value)
  else real? negative digits 0

/-- Reads a number that takes up the whole text. -/
def ofChars? (text : List Char) : Option Number := do
  let (negative, text) :=
    match text with
    | '-' :: rest => (true, rest)
    | _ => (false, text)
  let (whole, text) := spanDigits text
  if isWhole whole then
    let (fraction, text) ← fraction? text
    let exponent ← exponent? text
    match fraction, exponent with
    | none, none => integer? negative whole
    | _, _ =>
      let places := fraction.getD []
      real? negative (whole ++ places) (exponent.getD 0 - places.length)
  else none

/-! ## Printing -/

/-- The decimal digits of an integer, a minus in front of a negative one. -/
def intChars : Int → List Char
  | .ofNat n => Nat.toDigits 10 n
  | .negSucc n => '-' :: Nat.toDigits 10 (n + 1)

/-- The characters of a number. A real is written with an exponent, so that it stays one. -/
def chars : Number → List Char
  | .int n => intChars n
  | .real negative digits exponent =>
    (if negative then ['-'] else []) ++ Nat.toDigits 10 digits ++ 'e' :: intChars exponent

end SelectTree.Json.Number
