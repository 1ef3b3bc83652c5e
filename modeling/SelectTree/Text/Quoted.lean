/-!
# Quoted text

A quoted text stands between two quote characters, and a quote character inside it is written twice.
-/

namespace SelectTree.Text

/-- Writes each quote character twice. -/
def double (quote : Char) : List Char → List Char
  | [] => []
  | c :: rest => if c = quote then quote :: quote :: double quote rest else c :: double quote rest

/-- The quoted form of a text. -/
def quoted (quote : Char) (text : String) : String :=
  String.ofList (quote :: double quote text.toList ++ [quote])

end SelectTree.Text
