import Mathlib.Data.List.TakeWhile
import Mathlib.Tactic.Lemma
import SelectTree.Json.Printer
import SelectTree.Json.Reader

/-!
# Cutting printed text

Every part of a printed value is cut off as the token that it was printed for: an integer as its
number, a string as its text with all escapes undone, a literal name, a bracket or a separator.
`tokensFrom?` is what the cutter makes of a text from some point on. The lemmas say what it does
with one token in front of the rest, so that later proofs never look inside the cutter.
-/

namespace SelectTree.Json

/-! ## Integers -/

namespace Number

lemma isDigit_toDigits (n : Nat) : ∀ c ∈ Nat.toDigits 10 n, c.isDigit = true :=
  fun _ => Nat.isDigit_of_mem_toDigits (by decide) (by decide)

lemma head?_toDigits_ne_zero {n : Nat} (h : 0 < n) : (Nat.toDigits 10 n).head? ≠ some '0' := by
  induction n using Nat.strongRecOn with
  | ind n ih =>
    rw [Nat.toDigits_eq_if (by decide)]
    split
    · next hlt =>
      have hdigit : ∀ m < 10, 0 < m → [Nat.digitChar m].head? ≠ some '0' := by decide
      exact hdigit n hlt h
    · rw [List.head?_append, Option.or_of_isSome (by simp)]
      exact ih (n / 10) (by omega) (by omega)

lemma isWhole_toDigits (n : Nat) : isWhole (Nat.toDigits 10 n) = true := by
  cases n with
  | zero => rfl
  | succ n =>
    have hhead := head?_toDigits_ne_zero (Nat.succ_pos n)
    unfold isWhole
    split
    · next heq => exact absurd heq Nat.toDigits_ne_nil
    · rfl
    · next heq =>
      rw [heq] at hhead
      simpa using hhead

section

variable {digits : List Char} (hdigits : ∀ c ∈ digits, c.isDigit = true)

include hdigits

lemma spanDigits_digits : spanDigits digits = (digits, []) := by
  rw [spanDigits, List.takeWhile_eq_self_iff.mpr hdigits, List.dropWhile_eq_nil_iff.mpr hdigits]

lemma ofChars?_minus (hwhole : isWhole digits = true) :
    ofChars? ('-' :: digits) = integer? true digits := by
  simp [ofChars?, spanDigits_digits hdigits, hwhole, fraction?, exponent?]

lemma ofChars?_digits (hwhole : isWhole digits = true) :
    ofChars? digits = integer? false digits := by
  unfold ofChars?
  split
  next negative text hsign =>
    split at hsign
    · exact absurd (hdigits '-' List.mem_cons_self) (by decide)
    · cases hsign
      -- without explicit proofs the kernel unfolds `integer?` down to the bounds of a word
      simp -implicitDefEqProofs [spanDigits_digits hdigits, hwhole, fraction?, exponent?]

end

/-- An integer that fits a signed or an unsigned word is read back from its digits. -/
theorem ofChars?_intChars {n : Int} (hmin : Int64.minValue.toInt ≤ n) (hmax : n < UInt64.size) :
    ofChars? (intChars n) = some (.int n) := by
  have hvalue (m : Nat) : digitsValue (Nat.toDigits 10 m) = m := Nat.ofDigitChars_ten_toDigits
  cases n with
  | ofNat n =>
    rw [intChars, ofChars?_digits (isDigit_toDigits n) (isWhole_toDigits n), integer?, hvalue]
    simp only [Bool.false_and, Bool.false_eq_true, if_false]
    exact if_pos ⟨hmin, hmax⟩
  | negSucc n =>
    rw [intChars, ofChars?_minus (isDigit_toDigits (n + 1)) (isWhole_toDigits (n + 1)), integer?,
      hvalue]
    simp only [Bool.true_and, Nat.succ_ne_zero, decide_false, Bool.false_eq_true, if_false, if_true]
    exact if_pos ⟨hmin, hmax⟩

end Number

/-! ## Tokens -/

namespace Token

/-- The tokens of the rest of a text, from inside of `mode` on. -/
def tokensFrom? (mode : Mode) (text : List Char) : Option (List Token) :=
  (Cutter.run ⟨[], mode⟩ text).bind Cutter.finish?

lemma stepGap_append (found before : List Token) (c : Char) :
    stepGap (found ++ before) c =
      (stepGap found c).map fun next => ⟨next.found ++ before, next.mode⟩ := by
  unfold stepGap
  repeat' split
  all_goals simp [Function.comp_def]

lemma step_append (found before : List Token) (mode : Mode) (c : Char) :
    Cutter.step ⟨found ++ before, mode⟩ c =
      (Cutter.step ⟨found, mode⟩ c).map fun next => ⟨next.found ++ before, next.mode⟩ := by
  cases mode with
  | gap => exact stepGap_append found before c
  | name taken =>
    simp only [Cutter.step]
    split
    · rfl
    · cases ofName? taken.reverse with
      | none => rfl
      | some token => exact stepGap_append (token :: found) before c
  | number taken =>
    simp only [Cutter.step]
    split
    · rfl
    · cases Number.ofChars? taken.reverse with
      | none => rfl
      | some n => exact stepGap_append (.number n :: found) before c
  | string taken =>
    simp only [Cutter.step]
    split
    · simp [Function.comp_def]
    · split <;> rfl
  | escape taken => rfl

/-- The tokens found before do not matter for those that are found later. -/
lemma run_finish_append (found before : List Token) (mode : Mode) (text : List Char) :
    (Cutter.run ⟨found ++ before, mode⟩ text).bind Cutter.finish? =
      ((Cutter.run ⟨found, mode⟩ text).bind Cutter.finish?).map (before.reverse ++ ·) := by
  induction text generalizing found mode with
  | nil => cases mode <;> simp [Cutter.run, Cutter.finish?, Function.comp_def]
  | cons c rest ih =>
    rw [Cutter.run, Cutter.run, step_append]
    cases Cutter.step ⟨found, mode⟩ c with
    | none => rfl
    | some next => exact ih next.found next.mode

/-! Each kind of token stands in front of a rest that is not yet cut, and the cutter goes on with the
rest as if it began there. -/

lemma tokensFrom?_of_move {mode mode' : Mode} {c : Char}
    (h : Cutter.step ⟨[], mode⟩ c = some ⟨[], mode'⟩) (rest : List Char) :
    tokensFrom? mode (c :: rest) = tokensFrom? mode' rest := by
  rw [tokensFrom?, Cutter.run, h]
  rfl

lemma tokensFrom?_of_found {mode : Mode} {c : Char} {token : Token}
    (h : Cutter.step ⟨[], mode⟩ c = some ⟨[token], .gap⟩) (rest : List Char) :
    tokensFrom? mode (c :: rest) = (tokensFrom? .gap rest).map (token :: ·) := by
  rw [tokensFrom?, Cutter.run, h]
  exact run_finish_append [] [token] .gap rest

lemma tokensFrom?_blank {c : Char} (h : isBlank c = true) (rest : List Char) :
    tokensFrom? .gap (c :: rest) = tokensFrom? .gap rest :=
  tokensFrom?_of_move (by simp [Cutter.step, stepGap, h]) rest

lemma tokensFrom?_blanks {blanks : List Char} (h : ∀ c ∈ blanks, isBlank c = true)
    (rest : List Char) : tokensFrom? .gap (blanks ++ rest) = tokensFrom? .gap rest := by
  induction blanks with
  | nil => rfl
  | cons c blanks ih =>
    rw [List.forall_mem_cons] at h
    rw [List.cons_append, tokensFrom?_blank h.1, ih h.2]

/-- A text that cannot continue a number or a literal name. -/
def Breaks (text : List Char) : Prop :=
  ∀ c, text.head? = some c → isNumeric c = false ∧ c.isLower = false

lemma breaks_nil : Breaks [] := nofun

lemma breaks_cons {c : Char} (hnumeric : isNumeric c = false) (hlower : c.isLower = false)
    (rest : List Char) : Breaks (c :: rest) := by
  intro d hd
  cases hd
  exact ⟨hnumeric, hlower⟩

lemma breaks_blanks {blanks text : List Char} (h : ∀ c ∈ blanks, isBlank c = true)
    (htext : Breaks text) : Breaks (blanks ++ text) := by
  cases blanks with
  | nil => exact htext
  | cons c blanks =>
    have hc := h c List.mem_cons_self
    simp only [isBlank, Bool.or_eq_true, beq_iff_eq] at hc
    obtain ((rfl | rfl) | rfl) | rfl := hc <;> exact breaks_cons (by decide) (by decide) _

/-! ### Names and numbers -/

/-- A mode that goes on over its own characters, and is left at any other with the token that
`token?` makes of what was taken. -/
structure RunsOn (inside : List Char → Mode) (own : Char → Bool)
    (token? : List Char → Option Token) : Prop where
  go : ∀ taken c, own c = true →
    Cutter.step ⟨[], inside taken⟩ c = some ⟨[], inside (c :: taken)⟩
  stop : ∀ taken c, own c = false →
    Cutter.step ⟨[], inside taken⟩ c = (token? taken.reverse).bind fun token => stepGap [token] c
  finish : ∀ taken, Cutter.finish? ⟨[], inside taken⟩ = (token? taken.reverse).map ([·])

lemma runsOn_name : RunsOn .name Char.isLower ofName? where
  go taken c h := by simp [Cutter.step, h]
  stop taken c h := by simp [Cutter.step, h]
  finish taken := rfl

lemma runsOn_number :
    RunsOn .number isNumeric fun text => (Number.ofChars? text).map .number where
  go taken c h := by simp [Cutter.step, h]
  stop taken c h := by
    rw [Option.bind_map]
    simp only [Cutter.step, h, Bool.false_eq_true, if_false]
    rfl
  finish taken := by simp [Cutter.finish?, Function.comp_def]

section

variable {inside : List Char → Mode} {own : Char → Bool} {token? : List Char → Option Token}
  {token : Token} {rest : List Char}

lemma RunsOn.tokensFrom?_end (h : RunsOn inside own token?) {taken : List Char}
    (htoken : token? taken.reverse = some token)
    (hrest : ∀ c, rest.head? = some c → own c = false) :
    tokensFrom? (inside taken) rest = (tokensFrom? .gap rest).map (token :: ·) := by
  cases rest with
  | nil =>
    rw [tokensFrom?, Cutter.run, Option.bind_some, h.finish, htoken]
    rfl
  | cons c rest =>
    have hstep : Cutter.step ⟨[], inside taken⟩ c =
        (stepGap [] c).map fun next => ⟨next.found ++ [token], next.mode⟩ := by
      rw [h.stop taken c (hrest c rfl), htoken]
      exact stepGap_append [] [token] c
    rw [tokensFrom?, tokensFrom?, Cutter.run, Cutter.run, hstep, Cutter.step]
    cases stepGap [] c with
    | none => rfl
    | some next => exact run_finish_append next.found [token] next.mode rest

lemma RunsOn.tokensFrom?_taken (h : RunsOn inside own token?) {text taken : List Char}
    (hown : ∀ c ∈ text, own c = true) (htoken : token? (taken.reverse ++ text) = some token)
    (hrest : ∀ c, rest.head? = some c → own c = false) :
    tokensFrom? (inside taken) (text ++ rest) = (tokensFrom? .gap rest).map (token :: ·) := by
  induction text generalizing taken with
  | nil => exact h.tokensFrom?_end (by simpa using htoken) hrest
  | cons c text ih =>
    rw [List.forall_mem_cons] at hown
    rw [List.cons_append, tokensFrom?_of_move (h.go taken c hown.1)]
    exact ih hown.2 (by simpa using htoken)

/-- A name or a number is cut off as a whole. -/
lemma RunsOn.tokensFrom?_gap (h : RunsOn inside own token?) {c : Char} {text : List Char}
    (hstart : Cutter.step ⟨[], .gap⟩ c = some ⟨[], inside [c]⟩) (hown : ∀ d ∈ text, own d = true)
    (htoken : token? (c :: text) = some token)
    (hrest : ∀ d, rest.head? = some d → own d = false) :
    tokensFrom? .gap (c :: text ++ rest) = (tokensFrom? .gap rest).map (token :: ·) := by
  rw [List.cons_append, tokensFrom?_of_move hstart]
  exact h.tokensFrom?_taken hown htoken hrest

end

lemma tokensFrom?_name {name rest : List Char} {token : Token} (hname : ofName? name = some token)
    (hrest : Breaks rest) :
    tokensFrom? .gap (name ++ rest) = (tokensFrom? .gap rest).map (token :: ·) := by
  have hstop (c : Char) (hc : rest.head? = some c) : c.isLower = false := (hrest c hc).2
  have hcases : name = ['n', 'u', 'l', 'l'] ∨ name = ['t', 'r', 'u', 'e'] ∨
      name = ['f', 'a', 'l', 's', 'e'] := by
    by_contra hnone
    simp only [not_or] at hnone
    simp [ofName?, hnone] at hname
  obtain rfl | rfl | rfl := hcases
  all_goals exact runsOn_name.tokensFrom?_gap rfl (List.all_eq_true.mp rfl) hname hstop

lemma step_gap_digit {c : Char} (h : c.isDigit = true) :
    Cutter.step ⟨[], .gap⟩ c = some ⟨[], .number [c]⟩ := by
  have hblank : isBlank c = false := by
    by_contra hblank
    simp only [isBlank, Bool.not_eq_false, Bool.or_eq_true, beq_iff_eq] at hblank
    obtain ((rfl | rfl) | rfl) | rfl := hblank <;> exact absurd h (by decide)
  have hquote : c ≠ '"' := by
    rintro rfl
    exact absurd h (by decide)
  simp [Cutter.step, stepGap, hblank, hquote, h]

lemma tokensFrom?_int {n : Int} {rest : List Char} (hmin : Int64.minValue.toInt ≤ n)
    (hmax : n < UInt64.size) (hrest : Breaks rest) :
    tokensFrom? .gap (Number.intChars n ++ rest) =
      (tokensFrom? .gap rest).map (.number (.int n) :: ·) := by
  have hstop (c : Char) (hc : rest.head? = some c) : isNumeric c = false := (hrest c hc).1
  have hread := Number.ofChars?_intChars hmin hmax
  have hown (m : Nat) (c : Char) (hc : c ∈ Nat.toDigits 10 m) : isNumeric c = true := by
    simp [isNumeric, Number.isDigit_toDigits m c hc]
  cases n with
  | ofNat n =>
    rw [Number.intChars] at hread ⊢
    cases hdigits : Nat.toDigits 10 n with
    | nil => exact absurd hdigits Nat.toDigits_ne_nil
    | cons c text =>
      rw [hdigits] at hread
      have hmem : ∀ d ∈ c :: text, d ∈ Nat.toDigits 10 n := by simp [hdigits]
      have hc : c.isDigit = true := Number.isDigit_toDigits n c (hmem c List.mem_cons_self)
      refine runsOn_number.tokensFrom?_gap (step_gap_digit hc)
        (fun d hd => hown n d (hmem d (List.mem_cons_of_mem c hd))) ?_ hstop
      rw [hread]
      rfl
  | negSucc n =>
    rw [Number.intChars] at hread ⊢
    refine runsOn_number.tokensFrom?_gap rfl (hown (n + 1)) ?_ hstop
    rw [hread]
    rfl

/-! ### Strings -/

lemma hexUnit?_digitChar : ∀ n < 32,
    hexUnit? '0' '0' (Nat.digitChar (n / 16)) (Nat.digitChar (n % 16)) = some n := by
  decide

/-- A character of a string is written in one of three ways. -/
lemma escapeChar_cases (c : Char) :
    (∃ d, escapeChar c = ['\\', d] ∧ shortEscape? d = some c) ∨
    (c < ' ' ∧ ∃ a b, escapeChar c = ['\\', 'u', '0', '0', a, b] ∧
      hexUnit? '0' '0' a b = some c.toNat) ∨
    (escapeChar c = [c] ∧ c ≠ '"' ∧ c ≠ '\\' ∧ ¬c < ' ') := by
  unfold escapeChar
  split
  case h_8 hquote hslash _ _ _ _ _ =>
    split
    · next hcontrol =>
      exact .inr (.inl ⟨hcontrol, _, _, rfl, hexUnit?_digitChar c.toNat hcontrol⟩)
    · next hcontrol => exact .inr (.inr ⟨rfl, hquote, hslash, hcontrol⟩)
  all_goals exact .inl ⟨_, rfl, rfl⟩

lemma tokensFrom?_plain {c : Char} (hquote : c ≠ '"') (hslash : c ≠ '\\')
    (taken rest : List Char) :
    tokensFrom? (.string taken) (c :: rest) = tokensFrom? (.string (c :: taken)) rest :=
  tokensFrom?_of_move (by simp [Cutter.step, hquote, hslash]) rest

lemma tokensFrom?_slash (c : Char) (taken rest : List Char) :
    tokensFrom? (.string taken) ('\\' :: c :: rest) =
      tokensFrom? (.string (c :: '\\' :: taken)) rest := by
  have hslash : Cutter.step ⟨[], .string taken⟩ '\\' = some ⟨[], .escape ('\\' :: taken)⟩ := rfl
  have hchar : Cutter.step ⟨[], .escape ('\\' :: taken)⟩ c =
      some ⟨[], .string (c :: '\\' :: taken)⟩ := rfl
  rw [tokensFrom?_of_move hslash, tokensFrom?_of_move hchar]

lemma hexDigit?_ne {c : Char} {n : Nat} (h : hexDigit? c = some n) : c ≠ '"' ∧ c ≠ '\\' := by
  constructor
  all_goals
    rintro rfl
    cases h

lemma tokensFrom?_escapeChar (c : Char) (taken rest : List Char) :
    tokensFrom? (.string taken) (escapeChar c ++ rest) =
      tokensFrom? (.string ((escapeChar c).reverse ++ taken)) rest := by
  obtain ⟨d, hshort, -⟩ | ⟨-, a, b, hunit, hhex⟩ | ⟨hplain, hquote, hslash, -⟩ := escapeChar_cases c
  · rw [hshort]
    exact tokensFrom?_slash d taken rest
  · rw [hunit]
    simp only [hexUnit?, Option.bind_eq_bind, Option.bind_eq_some_iff] at hhex
    obtain ⟨-, -, -, -, m, ha, n, hb, -⟩ := hhex
    have hzero : '0' ≠ '"' ∧ '0' ≠ '\\' := by decide
    have ha := hexDigit?_ne ha
    have hb := hexDigit?_ne hb
    simp only [List.cons_append, List.nil_append]
    rw [tokensFrom?_slash, tokensFrom?_plain hzero.1 hzero.2, tokensFrom?_plain hzero.1 hzero.2,
      tokensFrom?_plain ha.1 ha.2, tokensFrom?_plain hb.1 hb.2]
    rfl
  · rw [hplain]
    exact tokensFrom?_plain hquote hslash taken rest

lemma tokensFrom?_writeBody (text taken rest : List Char) :
    tokensFrom? (.string taken) (writeBody rest text) =
      tokensFrom? (.string ((text.flatMap escapeChar).reverse ++ taken)) rest := by
  induction text generalizing taken with
  | nil => rfl
  | cons c text ih =>
    rw [writeBody, tokensFrom?_escapeChar, ih]
    simp

lemma joinPieces?_unit {c : Char} (h : c < ' ') (pieces : List Piece) :
    joinPieces? (.unit c.toNat :: pieces) = (joinPieces? pieces).map (c :: ·) := by
  have hnat : c.toNat < 32 := h
  have hlead : isLead c.toNat = false := by
    simp only [isLead, Bool.and_eq_false_iff, decide_eq_false_iff_not]
    omega
  have htrail : isTrail c.toNat = false := by
    simp only [isTrail, Bool.and_eq_false_iff, decide_eq_false_iff_not]
    omega
  cases pieces with
  | nil => simp [joinPieces?, hlead, htrail]
  | cons piece pieces => cases piece <;> simp [joinPieces?, hlead, htrail]

/-- The body of a string gives its characters back, one at a time. -/
lemma pieces?_escapeChar (c : Char) (body : List Char) :
    (pieces? (escapeChar c ++ body)).bind joinPieces? =
      ((pieces? body).bind joinPieces?).map (c :: ·) := by
  obtain ⟨d, hshort, hc⟩ | ⟨hcontrol, a, b, hunit, hhex⟩ | ⟨hplain, hquote, hslash, hcontrol⟩ :=
    escapeChar_cases c
  · have hd : d ≠ 'u' := by
      rintro rfl
      cases hc
    rw [hshort]
    cases hbody : pieces? body <;> simp [pieces?, hd, hc, hbody, joinPieces?]
  · rw [hunit]
    cases hbody : pieces? body <;> simp [pieces?, hhex, hbody, joinPieces?_unit hcontrol]
  · rw [hplain]
    cases hbody : pieces? body <;> simp [pieces?, hslash, hcontrol, hbody, joinPieces?]

lemma stringOfBody?_escaped (text : List Char) :
    stringOfBody? (text.flatMap escapeChar) = some (String.ofList text) := by
  have hbody : (pieces? (text.flatMap escapeChar)).bind joinPieces? = some text := by
    induction text with
    | nil => rfl
    | cons c text ih => rw [List.flatMap_cons, pieces?_escapeChar, ih, Option.map_some]
  obtain ⟨pieces, hpieces, htext⟩ := Option.bind_eq_some_iff.mp hbody
  simp [stringOfBody?, hpieces, htext]

lemma tokensFrom?_string (text : String) (rest : List Char) :
    tokensFrom? .gap (writeString text rest) =
      (tokensFrom? .gap rest).map (.string text :: ·) := by
  have hopen : Cutter.step ⟨[], .gap⟩ '"' = some ⟨[], .string []⟩ := rfl
  rw [writeString, tokensFrom?_of_move hopen, tokensFrom?_writeBody]
  refine tokensFrom?_of_found ?_ rest
  simp [Cutter.step, stringOfBody?_escaped]

end Token

end SelectTree.Json
