import SelectTree.Proofs.Meaning
import SelectTree.Proofs.Rules.Exact

/-!
# Rendered texts

What lowering writes as text can be read back, whatever characters it is made of. A quoted text ends
where its closing quote stands and nowhere else, so that no string can break out of its quotes; a
string looks different as an identifier, as an operator and as a constant; and the text of a column
gives its parts back, since no part can be mistaken for the beginning of a longer one
(`Part.text_append_inj`).
-/

namespace SelectTree

open Lower (Gives GivesText depthCeiling levels need render)
open Parse (Attributes Kind present? raw tagged)
open Query (Node)

/-! ## Strings -/

lemma length_double_ge (quote : Char) (text : List Char) :
    text.length ≤ (Text.double quote text).length := by
  induction text with
  | nil => simp
  | cons c rest ih =>
    rw [Text.double]
    split <;> simp only [List.length_cons] <;> omega

/-- Quotes make a text longer. -/
lemma quoted_ne (quote : Char) (text : String) : Text.quoted quote text ≠ text := by
  intro h
  have hlength : (Text.quoted quote text).toList.length = text.toList.length := by rw [h]
  have hdouble := length_double_ge quote text.toList
  rw [Text.quoted, String.toList_ofList] at hlength
  simp only [List.cons_append, List.length_cons, List.length_append] at hlength
  omega

/-- A quoted text begins with its quote. -/
lemma head?_quoted (quote : Char) (text : String) :
    (Text.quoted quote text).toList.head? = some quote := by
  rw [Text.quoted, String.toList_ofList]
  rfl

/-- A string is rendered differently in each mode. -/
lemma render_injective (text : String) : Function.Injective fun mode => render mode text := by
  have hquotes : Text.quoted '\x27' text ≠ Text.quoted '"' text := by
    intro h
    have hhead := head?_quoted '\x27' text
    rw [h, head?_quoted] at hhead
    exact absurd hhead (by decide)
  intro mode mode' h
  cases mode with
  | identifier =>
    cases mode' with
    | identifier => rfl
    | operator => exact absurd h (quoted_ne '"' text)
    | constant => exact absurd h.symm hquotes
  | operator =>
    cases mode' with
    | identifier => exact absurd h.symm (quoted_ne '"' text)
    | operator => rfl
    | constant => exact absurd h.symm (quoted_ne '\x27' text)
  | constant =>
    cases mode' with
    | identifier => exact absurd h hquotes
    | operator => exact absurd h (quoted_ne '\x27' text)
    | constant => rfl

/-! ## Columns -/

/-- The text of a column: its parts with points between them. -/
def columnText (parts : List Part) : String :=
  ".".intercalate (parts.map Part.text)

/-- The parts of a column after the first, each behind a point. -/
def pointedTexts (parts : List Part) : List Char :=
  parts.flatMap fun part => '.' :: part.text.toList

@[simp] lemma pointedTexts_nil : pointedTexts [] = [] := rfl

@[simp] lemma pointedTexts_cons (part : Part) (parts : List Part) :
    pointedTexts (part :: parts) = '.' :: (part.text.toList ++ pointedTexts parts) := rfl

lemma head?_pointedTexts_ne (parts : List Part) : (pointedTexts parts).head? ≠ some '"' := by
  cases parts <;> simp

lemma toList_columnText_cons (part : Part) (parts : List Part) :
    (columnText (part :: parts)).toList = part.text.toList ++ pointedTexts parts := by
  induction parts generalizing part with
  | nil => simp [columnText]
  | cons next parts ih =>
    have hnext := ih next
    rw [columnText, List.map_cons] at hnext
    rw [columnText, List.map_cons, List.map_cons, String.intercalate_cons_cons, String.toList_append,
      String.toList_append, hnext, pointedTexts_cons]
    simp

/-- The first part of a text can be told from what follows it, unless that begins with a quote. -/
lemma Part.text_append_inj {part part' : Part} {rest rest' : List Char}
    (hrest : rest.head? ≠ some '"') (hrest' : rest'.head? ≠ some '"')
    (h : part.text.toList ++ rest = part'.text.toList ++ rest') : part = part' ∧ rest = rest' := by
  -- a name begins with a quote and a star does not, so only parts of one form can agree
  have hmixed (text : String) (before after : List Char)
      (heq : (Text.quoted '"' text).toList ++ before = "*".toList ++ after) : False := by
    have hhead := congrArg List.head? heq
    rw [List.head?_append, head?_quoted] at hhead
    exact absurd hhead (by simp)
  cases part with
  | name text =>
    cases part' with
    | name text' =>
      have hread := Text.readQuoted?_quoted '"' text hrest
      rw [Part.text, Part.text] at h
      rw [h, Text.readQuoted?_quoted '"' text' hrest'] at hread
      simp only [Option.some.injEq, Prod.mk.injEq] at hread
      exact ⟨by rw [String.toList_injective hread.1.symm], hread.2.symm⟩
    | star => exact absurd (hmixed text rest rest' h) id
  | star =>
    cases part' with
    | name text' => exact absurd (hmixed text' rest' rest h.symm) id
    | star => exact ⟨rfl, List.append_cancel_left h⟩

lemma pointedTexts_injective : Function.Injective pointedTexts := by
  intro parts parts' h
  induction parts generalizing parts' with
  | nil =>
    cases parts' with
    | nil => rfl
    | cons part' parts' => cases h
  | cons part parts ih =>
    cases parts' with
    | nil => cases h
    | cons part' parts' =>
      rw [pointedTexts_cons, pointedTexts_cons, List.cons.injEq] at h
      obtain ⟨rfl, hrest⟩ := Part.text_append_inj (head?_pointedTexts_ne parts)
        (head?_pointedTexts_ne parts') h.2
      rw [ih hrest]

lemma Part.text_ne_nil (part : Part) (rest : List Char) : part.text.toList ++ rest ≠ [] := by
  intro h
  have hnil := (List.append_eq_nil_iff.mp h).1
  cases part with
  | name text =>
    have hhead := head?_quoted '"' text
    rw [Part.text] at hnil
    rw [hnil] at hhead
    cases hhead
  | star => exact absurd hnil (by decide)

/-- Columns with different parts have different texts, whatever points and quotes stand in them. -/
lemma columnText_injective : Function.Injective columnText := by
  intro parts parts' h
  replace h := congrArg String.toList h
  cases parts with
  | nil =>
    cases parts' with
    | nil => rfl
    | cons part' parts' =>
      rw [toList_columnText_cons] at h
      exact absurd h.symm (part'.text_ne_nil _)
  | cons part parts =>
    cases parts' with
    | nil =>
      rw [toList_columnText_cons] at h
      exact absurd h (part.text_ne_nil _)
    | cons part' parts' =>
      rw [toList_columnText_cons, toList_columnText_cons] at h
      obtain ⟨rfl, hrest⟩ := Part.text_append_inj (head?_pointedTexts_ne parts)
        (head?_pointedTexts_ne parts') h
      rw [pointedTexts_injective hrest]

/-! ## Lowered texts -/

/-- A parse tree is lowered as it is without a limit, under every limit that leaves it room. -/
lemma result_of_gives {context : Context} {value : Json} {result : Node} {limit : UInt64}
    (h : Gives context value result) (hlimit : need value ≤ limit.toNat) :
    ((Session.fresh limit).node value context).1.result = .ok result :=
  (result_fresh_eq_ok_iff ((Lower.budgeted value).node context)).mpr ⟨h, by omega⟩

lemma gives_string {fields : Json.Fields} {text : String}
    (h : present? fields "str" = some (.string text)) (context : Context) :
    Gives context (tagged .string fields) (.literal (render context.literal text)) :=
  Lower.gives_tagged_iff.mpr (.makes (.string h))

lemma PartSpells.givesText {value : Json} {part : Part} (h : PartSpells value part) :
    GivesText {} value part.text := by
  cases h with
  | name htext => exact ⟨_, gives_string (Attributes.text_raw_eq_ok_iff.mp htext) {}, rfl⟩
  | star => exact ⟨.star, Lower.gives_tagged_iff.mpr (.makes .star), rfl⟩

lemma PartSpells.need_eq {value : Json} {part : Part} (h : PartSpells value part) :
    need value = 1 := by
  cases h with
  | name _ => rw [tagged, Lower.need_tagged (Kind.ofTag?_tag _)]; rfl
  | star => rw [tagged, Lower.need_tagged (Kind.ofTag?_tag _)]; rfl

lemma levels_le_of_partSpells {values : List Json} {parts : List Part}
    (h : List.Forall₂ PartSpells values parts) : levels values ≤ 1 := by
  induction h with
  | nil => exact Nat.zero_le 1
  | cons hpart _ ih =>
    rw [Lower.levels_cons, hpart.need_eq]
    exact Nat.max_le.mpr ⟨Nat.le_refl 1, ih⟩

lemma need_columnRef_le {fields : Json.Fields} {values : List Json} {parts : List Part}
    (hvalues : present? fields "fields" = some (.array values))
    (hparts : List.Forall₂ PartSpells values parts) :
    need (tagged .columnRef fields) ≤ 2 := by
  have hmany : (raw Kind.columnRef.tag fields).many "fields" = values :=
    Attributes.many_of_list (Attributes.list_raw_eq_ok_iff.mpr hvalues)
  have hlevels := levels_le_of_partSpells hparts
  have hweight : Lower.weight .columnRef = 1 := rfl
  rw [tagged, Lower.need_tagged (Kind.ofTag?_tag _), Lower.needBelow, Parse.children, hmany,
    hweight]
  omega

/-- **Quoting is faithful.** A quoted text is read back as the text that was quoted, and the reader
stops right behind it, unless another quote follows. A string is rendered differently as an
identifier, as an operator and as a constant. And the text that a column is lowered to determines
its parts. -/
theorem quoting_faithful :
    (∀ quote text rest, rest.head? ≠ some quote →
      Text.readQuoted? quote ((Text.quoted quote text).toList ++ rest) =
        some (text.toList, rest)) ∧
    (∀ fields text, present? fields "str" = some (.string text) →
      (∀ mode nested limit, 1 ≤ limit.toNat →
        ((Session.fresh limit).node (tagged .string fields) { literal := mode, nested }).1.result =
          .ok (.literal (render mode text))) ∧
      Function.Injective fun mode => render mode text) ∧
    (∀ fields values parts, present? fields "fields" = some (.array values) →
      List.Forall₂ PartSpells values parts → ∀ context limit, 2 ≤ limit.toNat →
        ((Session.fresh limit).node (tagged .columnRef fields) context).1.result =
          .ok (.column (columnText parts))) ∧
    Function.Injective columnText := by
  refine ⟨fun quote text rest => Text.readQuoted?_quoted quote text, fun fields text htext => ?_,
    fun fields values parts hvalues hparts context limit hlimit => ?_, columnText_injective⟩
  · refine ⟨fun mode nested limit hlimit => ?_, render_injective text⟩
    have hneed : need (tagged .string fields) = 1 :=
      PartSpells.need_eq (.name (Attributes.text_raw_eq_ok_iff.mpr htext))
    exact result_of_gives (gives_string htext { literal := mode, nested }) (hneed ▸ hlimit)
  · have htexts : List.Forall₂ (GivesText {}) values (parts.map Part.text) :=
      List.forall₂_map_right_iff.mpr (hparts.imp fun _ _ => PartSpells.givesText)
    exact result_of_gives (Lower.gives_tagged_iff.mpr (.makes (.column hvalues htexts)))
      (Nat.le_trans (need_columnRef_le hvalues hparts) hlimit)

/-- The attributes of a string with both quotes and a point in it. -/
def quoteString : Json.Fields :=
  [("str", .string "a\".'b")]

/-- A column with that string as its first part and a star as its second. -/
def quoteColumn : Json.Fields :=
  [("fields", .array [tagged .string quoteString, tagged .aStar []])]

theorem quoting_faithful_quoteColumn :
    (Text.readQuoted? '\x27' "'a\".''b' OR 1".toList = some ("a\".'b".toList, " OR 1".toList) ∧
      ((Session.fresh 1).node (tagged .string quoteString) { literal := .constant }).1.result =
        .ok (.literal "'a\".''b'")) ∧
    ((Session.fresh 2).node (tagged .columnRef quoteColumn)).1.result =
      .ok (.column "\"a\"\".'b\".*") := by
  refine ⟨⟨?_, ?_⟩, ?_⟩
  · exact quoting_faithful.1 '\x27' "a\".'b" " OR 1".toList (by decide)
  · exact (quoting_faithful.2.1 quoteString "a\".'b" rfl).1 .constant false 1 (by decide)
  · exact quoting_faithful.2.2.1 quoteColumn _ [.name "a\".'b", .star] rfl
      (.cons (.name rfl) (.cons .star .nil)) {} 2 (by decide)

end SelectTree
