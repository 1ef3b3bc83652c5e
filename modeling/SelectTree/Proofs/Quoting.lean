import Mathlib.Tactic.Lemma
import SelectTree.Text.Quoted

/-!
# Reading quoted text

The reader of quoted text, as SQL has it: a quote opens the text, two quotes in a row stand for one,
and the first quote that stands alone closes the text. It gives back what was quoted, and the quoted
text ends nowhere else.
-/

namespace SelectTree.Text

/-- Reads on behind an opening quote: the text up to the closing quote, and what follows it. -/
def readClosing? (quote : Char) : List Char → Option (List Char × List Char)
  | [] => none
  | c :: rest =>
    if c = quote then
      match rest with
      | [] => some ([], [])
      | d :: rest =>
        if d = quote then (readClosing? quote rest).map fun (text, after) => (d :: text, after)
        else some ([], d :: rest)
    else (readClosing? quote rest).map fun (text, after) => (c :: text, after)

/-- Reads a quoted text: the text, and what follows its closing quote. -/
def readQuoted? (quote : Char) : List Char → Option (List Char × List Char)
  | [] => none
  | c :: rest => if c = quote then readClosing? quote rest else none

/-- The text that stands quoted, if the whole is one quoted text. -/
def unquoted? (quote : Char) (text : String) : Option String :=
  match readQuoted? quote text.toList with
  | some (inner, []) => some (String.ofList inner)
  | _ => none

lemma readClosing?_cons_of_ne {quote c : Char} (h : c ≠ quote) (rest : List Char) :
    readClosing? quote (c :: rest) =
      (readClosing? quote rest).map fun (text, after) => (c :: text, after) := by
  cases rest <;> simp [readClosing?, h]

lemma readClosing?_double (quote : Char) (text : List Char) {rest : List Char}
    (hrest : rest.head? ≠ some quote) :
    readClosing? quote (double quote text ++ quote :: rest) = some (text, rest) := by
  induction text with
  | nil =>
    -- The closing quote stands alone, since no quote follows it.
    cases rest with
    | nil => simp [double, readClosing?]
    | cons d rest =>
      have hd : d ≠ quote := fun h => hrest (by rw [h]; rfl)
      simp [double, readClosing?, hd]
  | cons c text ih =>
    by_cases hc : c = quote
    · subst hc
      simp [double, readClosing?, ih]
    · simp [double, hc, readClosing?_cons_of_ne hc, ih]

/-- Reading a quoted text gives the text back and stops right behind it. -/
theorem readQuoted?_quoted (quote : Char) (text : String) {rest : List Char}
    (hrest : rest.head? ≠ some quote) :
    readQuoted? quote ((quoted quote text).toList ++ rest) = some (text.toList, rest) := by
  rw [quoted, String.toList_ofList]
  simp only [List.cons_append, List.append_assoc, List.nil_append, readQuoted?]
  rw [if_pos trivial]
  exact readClosing?_double quote text.toList hrest

@[simp] theorem unquoted?_quoted (quote : Char) (text : String) :
    unquoted? quote (quoted quote text) = some text := by
  have h : readQuoted? quote (quoted quote text).toList = some (text.toList, []) := by
    have hnil : ([] : List Char).head? ≠ some quote := by simp
    simpa using readQuoted?_quoted quote text hnil
  rw [unquoted?, h]
  exact congrArg some String.ofList_toList

end SelectTree.Text
