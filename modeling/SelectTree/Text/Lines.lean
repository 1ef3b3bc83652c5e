/-!
# Lines

A text as a list of lines. A line ends at a line feed, and a carriage return before the line feed
belongs to the break.
-/

namespace SelectTree.Text

/-- The white space of Unicode. -/
def isWhite (c : Char) : Bool :=
  let n := c.toNat
  (0x9 ≤ n && n ≤ 0xd) || n = 0x20 || n = 0x85 || n = 0xa0 || n = 0x1680
    || (0x2000 ≤ n && n ≤ 0x200a) || n = 0x2028 || n = 0x2029 || n = 0x202f || n = 0x205f
    || n = 0x3000

/-- A line without the carriage return at its end. -/
def dropReturn (line : List Char) : List Char :=
  if line.getLast? = some '\r' then line.dropLast else line

/-- The lines of a text that a line break follows. There is always one, though it may be empty. -/
def lines (text : List Char) : List (List Char) :=
  (text.splitOn '\n').map dropReturn

/-- A line without the white space at its start. -/
def trimStart (line : List Char) : List Char :=
  line.dropWhile isWhite

end SelectTree.Text
