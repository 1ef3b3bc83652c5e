/-!
# Control characters

A text that is shown on a terminal must not steer it. The characters by which a terminal is steered
are written as escapes; all others, line breaks and tabs among them, stand for themselves.
-/

namespace SelectTree.Text

/-- The single-byte characters that steer a terminal: bell, backspace, form feed, escape and
delete. -/
def steering : List Char :=
  ['\x07', '\x08', '\x0c', '\x1b', '\x7f']

/-- The two hexadecimal digits of a number below 256. -/
def hexPair (n : Nat) : List Char :=
  [Nat.digitChar (n / 16), Nat.digitChar (n % 16)]

/-- A character as a terminal shows it. The block from U+0080 to U+009F is escaped as a whole. -/
def visibleChar (c : Char) : List Char :=
  if c ∈ steering then '\\' :: 'x' :: hexPair c.toNat
  else if 0x80 ≤ c.toNat ∧ c.toNat ≤ 0x9f then '\\' :: 'u' :: '\x7b' :: hexPair c.toNat ++ ['\x7d']
  else [c]

/-- A text as a terminal shows it. A backslash is not escaped, so different texts may look alike. -/
def visible (text : List Char) : List Char :=
  text.flatMap visibleChar

@[simp] theorem visible_nil : visible [] = [] := rfl

@[simp] theorem visible_append (text text' : List Char) :
    visible (text ++ text') = visible text ++ visible text' :=
  List.flatMap_append

end SelectTree.Text
