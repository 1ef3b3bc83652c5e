import SelectTree.Proofs.Json.Cutting

/-!
# Reading back printed values

`read?_print` shows that a printed value is read back as it is, in every layout that puts only space
between the parts, and `noControl_write` that the compact text is a single line. The first goes by
induction over the value: `Reads` says that a value is read back wherever it stands, that is, in
front of any text that ends it and inside any arrays and objects that are still open.
-/

namespace SelectTree.Json

/-! ## Values -/

/-- A value that is read back as it is: its numbers are integers of a signed or an unsigned word,
and no object has a key twice. -/
inductive Plain : Json → Prop
  | null : Plain .null
  | bool (value : Bool) : Plain (.bool value)
  | int {n : Int} : Int64.minValue.toInt ≤ n → n < UInt64.size → Plain (.number (.int n))
  | string (text : String) : Plain (.string text)
  | array {items : List Json} : (∀ item ∈ items, Plain item) → Plain (.array items)
  | object {fields : Fields} : (fields.map Prod.fst).Nodup → (∀ field ∈ fields, Plain field.2) →
    Plain (.object fields)

/-- A layout that puts nothing but space between the parts of a value. -/
structure Layout.Blank (layout : Layout) : Prop where
  line : ∀ depth, ∀ c ∈ layout.line depth, Token.isBlank c = true
  gap : ∀ c ∈ layout.gap, Token.isBlank c = true

lemma Layout.blank_compact : Layout.compact.Blank where
  line _ := by simp [Layout.compact]
  gap := by simp [Layout.compact]

lemma Layout.blank_indented : Layout.indented.Blank where
  line _ := by simp [Layout.indented, Token.isBlank]
  gap := by simp [Layout.indented, Token.isBlank]

lemma Fields.insert_of_notMem {fields : Fields} {key : String} (h : key ∉ fields.map Prod.fst)
    (value : Json) : fields.insert key value = fields ++ [(key, value)] := by
  induction fields with
  | nil => rfl
  | cons field fields ih =>
    obtain ⟨k, v⟩ := field
    simp only [List.map_cons, List.mem_cons, not_or] at h
    rw [Fields.insert, if_neg (Ne.symm h.1), ih h.2]
    rfl

namespace Reader

open Token (Breaks Cutter tokensFrom?)

/-- What a reader makes of the rest of a text. -/
def resume? (reader : Reader) (text : List Char) : Option Json :=
  ((tokensFrom? .gap text).bind (run none reader)).bind finish?

variable {reader next : Reader} {token : Token} {text rest : List Char}

lemma resume?_token (htext : tokensFrom? .gap text = (tokensFrom? .gap rest).map (token :: ·))
    (hstep : reader.step none token = some next) : reader.resume? text = next.resume? rest := by
  have hrun (tokens : List Token) : run none reader (token :: tokens) = run none next tokens := by
    rw [run, hstep]
  rw [resume?, resume?, htext]
  cases tokensFrom? .gap rest with
  | none => rfl
  | some tokens => exact congrArg (·.bind finish?) (hrun tokens)

lemma resume?_mark {c : Char} (hc : Cutter.step ⟨[], .gap⟩ c = some ⟨[token], .gap⟩)
    (hstep : reader.step none token = some next) (rest : List Char) :
    reader.resume? (c :: rest) = next.resume? rest :=
  resume?_token (Token.tokensFrom?_of_found hc rest) hstep

lemma resume?_blanks {blanks : List Char} (h : ∀ c ∈ blanks, Token.isBlank c = true)
    (rest : List Char) : reader.resume? (blanks ++ rest) = reader.resume? rest := by
  rw [resume?, Token.tokensFrom?_blanks h, resume?]

/-- A reader that takes the next token for the beginning of a value. -/
def Awaits (reader : Reader) (frames : List Frame) : Prop :=
  ∀ token, token ≠ .endArray → reader.step none token = begin? none frames token

lemma awaits_needValue (frames : List Frame) : Awaits (.needValue frames) frames :=
  fun _ _ => rfl

lemma awaits_needItemOrEnd (frames : List Frame) :
    Awaits (.needItemOrEnd frames) (.array [] :: frames) := by
  intro token htoken
  cases token <;> first | rfl | exact absurd rfl htoken

/-- A value that is read back from its text in a layout, wherever it stands. -/
def Reads (layout : Layout) (value : Json) : Prop :=
  ∀ {reader : Reader} {frames : List Frame} {rest : List Char} (depth : Nat),
    Awaits reader frames → Breaks rest →
    reader.resume? (value.write layout depth rest) = (deliver value frames).resume? rest

section

variable {layout : Layout} (hlayout : layout.Blank)

include hlayout

lemma breaks_writeItems (items : List Json) (depth : Nat) :
    Breaks (writeItems layout (depth + 1) (layout.line depth ++ ']' :: rest) items) := by
  cases items with
  | nil => exact Token.breaks_blanks (hlayout.line depth) (Token.breaks_cons rfl rfl rest)
  | cons item items => exact Token.breaks_cons rfl rfl _

lemma resume?_writeItems {items : List Json} (h : ∀ item ∈ items, Reads layout item)
    (before : List Json) (frames : List Frame) (depth : Nat) :
    (Reader.afterItem before frames).resume?
        (writeItems layout (depth + 1) (layout.line depth ++ ']' :: rest) items) =
      (deliver (.array (before.reverse ++ items)) frames).resume? rest := by
  induction items generalizing before with
  | nil =>
    rw [writeItems, resume?_blanks (hlayout.line depth), resume?_mark rfl rfl, List.append_nil]
  | cons item items ih =>
    rw [List.forall_mem_cons] at h
    rw [writeItems, List.cons_append, resume?_mark rfl rfl, resume?_blanks (hlayout.line _),
      h.1 _ (awaits_needValue _) (breaks_writeItems hlayout items depth), deliver, ih h.2]
    simp

lemma reads_array {items : List Json} (h : ∀ item ∈ items, Reads layout item) :
    Reads layout (.array items) := by
  intro reader frames rest depth hreader _
  have hopen : reader.step none .beginArray = some (.needItemOrEnd frames) := hreader _ nofun
  cases items with
  | nil => rw [write, resume?_mark rfl hopen, resume?_mark rfl rfl]
  | cons item items =>
    rw [List.forall_mem_cons] at h
    rw [write, List.cons_append, resume?_mark rfl hopen, resume?_blanks (hlayout.line _),
      h.1 _ (awaits_needItemOrEnd _) (breaks_writeItems hlayout items depth), deliver,
      resume?_writeItems hlayout h.2]
    rfl

lemma resume?_field {fields : Fields} {key : String} {value : Json} {frames : List Frame}
    (hvalue : Reads layout value) (hkey : key ∉ fields.map Prod.fst)
    (hreader : reader.step none (.string key) = some (.needColon fields key frames)) (depth : Nat)
    (hrest : Breaks rest) :
    reader.resume? (writeString key (':' :: layout.gap ++ value.write layout depth rest)) =
      (Reader.afterField (fields ++ [(key, value)]) frames).resume? rest := by
  rw [resume?_token (Token.tokensFrom?_string key _) hreader, List.cons_append,
    resume?_mark rfl rfl, resume?_blanks hlayout.gap, hvalue _ (awaits_needValue _) hrest, deliver,
    Fields.insert_of_notMem hkey]

lemma breaks_writeFields (fields : Fields) (depth : Nat) :
    Breaks (writeFields layout (depth + 1) (layout.line depth ++ '\x7d' :: rest) fields) := by
  cases fields with
  | nil => exact Token.breaks_blanks (hlayout.line depth) (Token.breaks_cons rfl rfl rest)
  | cons field fields => exact Token.breaks_cons rfl rfl _

lemma resume?_writeFields {fields : Fields} (h : ∀ field ∈ fields, Reads layout field.2)
    (before : Fields) (hkeys : ((before ++ fields).map Prod.fst).Nodup) (frames : List Frame)
    (depth : Nat) :
    (Reader.afterField before frames).resume?
        (writeFields layout (depth + 1) (layout.line depth ++ '\x7d' :: rest) fields) =
      (deliver (.object (before ++ fields)) frames).resume? rest := by
  induction fields generalizing before with
  | nil =>
    rw [writeFields, resume?_blanks (hlayout.line depth), resume?_mark rfl rfl, List.append_nil]
  | cons field fields ih =>
    obtain ⟨key, value⟩ := field
    rw [List.forall_mem_cons] at h
    have hkey : key ∉ before.map Prod.fst := by
      rw [List.map_append, List.map_cons, List.nodup_append] at hkeys
      exact fun hmem => hkeys.2.2 key hmem key List.mem_cons_self rfl
    rw [writeFields, List.cons_append, resume?_mark rfl rfl, resume?_blanks (hlayout.line _),
      resume?_field hlayout h.1 hkey rfl _ (breaks_writeFields hlayout fields depth),
      ih h.2 _ (by simpa using hkeys)]
    simp

lemma reads_object {fields : Fields} (hkeys : (fields.map Prod.fst).Nodup)
    (h : ∀ field ∈ fields, Reads layout field.2) : Reads layout (.object fields) := by
  intro reader frames rest depth hreader _
  have hopen : reader.step none .beginObject = some (.needKeyOrEnd frames) := hreader _ nofun
  cases fields with
  | nil => rw [write, resume?_mark rfl hopen, resume?_mark rfl rfl]
  | cons field fields =>
    obtain ⟨key, value⟩ := field
    rw [List.forall_mem_cons] at h
    rw [write, List.cons_append, resume?_mark rfl hopen, resume?_blanks (hlayout.line _),
      resume?_field hlayout h.1 List.not_mem_nil rfl _ (breaks_writeFields hlayout fields depth),
      resume?_writeFields hlayout h.2 _ hkeys]
    rfl

/-- A plain value is read back wherever it stands. -/
theorem reads_of_plain {value : Json} (h : Plain value) : Reads layout value := by
  induction h with
  | null =>
    intro reader frames rest depth hreader hrest
    exact resume?_token (Token.tokensFrom?_name rfl hrest) (hreader _ nofun)
  | bool value =>
    intro reader frames rest depth hreader hrest
    cases value
    all_goals exact resume?_token (Token.tokensFrom?_name rfl hrest) (hreader _ nofun)
  | int hmin hmax =>
    intro reader frames rest depth hreader hrest
    exact resume?_token (Token.tokensFrom?_int hmin hmax hrest) (hreader _ nofun)
  | string text =>
    intro reader frames rest depth hreader hrest
    exact resume?_token (Token.tokensFrom?_string text rest) (hreader _ nofun)
  | array _ ih => exact reads_array hlayout ih
  | object hkeys _ ih => exact reads_object hlayout hkeys ih

end

end Reader

/-- What is printed is read back, whatever space the layout puts in. -/
theorem read?_print {layout : Layout} (hlayout : layout.Blank) {value : Json} (h : Plain value) :
    read? none (value.print layout) = some value := by
  have hread : read? none (value.print layout) =
      (Reader.needValue []).resume? (value.write layout 0 []) := by
    rw [read?, print, String.toList_ofList]
    exact (Option.bind_assoc ..).symm
  rw [hread, Reader.reads_of_plain hlayout h 0 (Reader.awaits_needValue []) Token.breaks_nil]
  rfl

/-! ## Control characters -/

/-- A text without control characters, line breaks among them. -/
def NoControl (text : List Char) : Prop :=
  ∀ c ∈ text, ' ' ≤ c

instance (text : List Char) : Decidable (NoControl text) :=
  List.decidableBAll (' ' ≤ ·) text

lemma noControl_nil : NoControl [] :=
  List.forall_mem_nil _

lemma noControl_cons {c : Char} {text : List Char} :
    NoControl (c :: text) ↔ ' ' ≤ c ∧ NoControl text :=
  List.forall_mem_cons

lemma noControl_append {text text' : List Char} :
    NoControl (text ++ text') ↔ NoControl text ∧ NoControl text' :=
  List.forall_mem_append

lemma noControl_toDigits (n : Nat) : NoControl (Nat.toDigits 10 n) := by
  intro c hc
  have hdigit := Number.isDigit_toDigits n c hc
  simp only [Char.isDigit, Bool.and_eq_true, decide_eq_true_eq] at hdigit
  exact Char.le_def.mpr (Nat.le_trans (by decide) hdigit.1)

lemma noControl_intChars (n : Int) : NoControl (Number.intChars n) := by
  cases n with
  | ofNat n => exact noControl_toDigits n
  | negSucc n => exact noControl_cons.mpr ⟨by decide, noControl_toDigits (n + 1)⟩

lemma noControl_chars (n : Number) : NoControl n.chars := by
  cases n with
  | int n => exact noControl_intChars n
  | real negative digits exponent =>
    have hsign : NoControl (if negative then ['-'] else []) := by
      cases negative <;> simp [NoControl]
    exact noControl_append.mpr ⟨noControl_append.mpr ⟨hsign, noControl_toDigits digits⟩,
      noControl_cons.mpr ⟨by decide, noControl_intChars exponent⟩⟩

lemma noControl_hexPair : ∀ n < 32, NoControl (Text.hexPair n) := by
  decide

lemma noControl_escapeChar (c : Char) : NoControl (escapeChar c) := by
  unfold escapeChar
  split
  case h_8 =>
    split
    · next hcontrol =>
      simp only [noControl_cons]
      exact ⟨by decide, by decide, by decide, by decide, noControl_hexPair c.toNat hcontrol⟩
    · next hcontrol => exact noControl_cons.mpr ⟨Char.not_lt.mp hcontrol, noControl_nil⟩
  all_goals decide

lemma noControl_writeString (text : String) {rest : List Char} (h : NoControl rest) :
    NoControl (writeString text rest) := by
  have hbody (body : List Char) : NoControl (writeBody ('"' :: rest) body) := by
    induction body with
    | nil => exact noControl_cons.mpr ⟨by decide, h⟩
    | cons c body ih => exact noControl_append.mpr ⟨noControl_escapeChar c, ih⟩
  exact noControl_cons.mpr ⟨by decide, hbody text.toList⟩

mutual

lemma noControl_write (value : Json) (depth : Nat) {rest : List Char} (h : NoControl rest) :
    NoControl (value.write .compact depth rest) := by
  match value with
  | .null | .bool true | .bool false => exact noControl_append.mpr ⟨by decide, h⟩
  | .number n => exact noControl_append.mpr ⟨noControl_chars n, h⟩
  | .string text => exact noControl_writeString text h
  | .array [] | .object [] =>
    exact noControl_cons.mpr ⟨by decide, noControl_cons.mpr ⟨by decide, h⟩⟩
  | .array (item :: items) =>
    exact noControl_cons.mpr ⟨by decide, noControl_write item (depth + 1)
      (noControl_writeItems items (depth + 1) (noControl_cons.mpr ⟨by decide, h⟩))⟩
  | .object ((key, value) :: fields) =>
    exact noControl_cons.mpr ⟨by decide, noControl_writeString key (noControl_cons.mpr ⟨by decide,
      noControl_write value (depth + 1)
        (noControl_writeFields fields (depth + 1) (noControl_cons.mpr ⟨by decide, h⟩))⟩)⟩

lemma noControl_writeItems (items : List Json) (depth : Nat) {rest : List Char}
    (h : NoControl rest) : NoControl (writeItems .compact depth rest items) := by
  match items with
  | [] => exact h
  | item :: items =>
    exact noControl_cons.mpr ⟨by decide,
      noControl_write item depth (noControl_writeItems items depth h)⟩

lemma noControl_writeFields (fields : Fields) (depth : Nat) {rest : List Char}
    (h : NoControl rest) : NoControl (writeFields .compact depth rest fields) := by
  match fields with
  | [] => exact h
  | (key, value) :: fields =>
    exact noControl_cons.mpr ⟨by decide, noControl_writeString key (noControl_cons.mpr ⟨by decide,
      noControl_write value depth (noControl_writeFields fields depth h)⟩)⟩

end

end SelectTree.Json
