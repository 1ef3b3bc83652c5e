import SelectTree.Command.Log
import SelectTree.Proofs.Notes

/-!
# The lines of the log

A log is told in lines, and nothing marks where a note ends. The first line of a note opens with its
level, and a note on one line has no others; so the level of a note can be told from its line.
Only if a detail runs over several lines, one of them may open like a warning.
`log_eq_warningLines_iff` says that nothing else makes a difference between the log of the warnings
and the lines of the whole log that open like one.
-/

namespace SelectTree.Text

/-! ## Line breaks -/

lemma lineFeed_notMem_hexPair {n : Nat} (h : n < 256) : '\n' ∉ hexPair n := by
  have hdigit : ∀ d < 16, '\n' ≠ Nat.digitChar d := by decide
  have hhigh := hdigit (n / 16) (by omega)
  have hlow := hdigit (n % 16) (by omega)
  simp only [hexPair, List.mem_cons, hhigh, hlow, List.not_mem_nil, or_self, not_false_eq_true]

lemma lineFeed_mem_visibleChar_iff (c : Char) : '\n' ∈ visibleChar c ↔ c = '\n' := by
  unfold visibleChar
  split
  · next hmem =>
    have hsmall : c.toNat < 256 := by
      simp only [steering, List.mem_cons, List.not_mem_nil, or_false] at hmem
      rcases hmem with rfl | rfl | rfl | rfl | rfl <;> decide
    have hne : c ≠ '\n' := fun heq => absurd (heq ▸ hmem) (by decide)
    simp [lineFeed_notMem_hexPair hsmall, hne]
  · split
    · next hrange =>
      have hsmall : c.toNat < 256 := by omega
      have hne : c ≠ '\n' := fun heq => absurd (heq ▸ hrange) (by decide)
      simp [lineFeed_notMem_hexPair hsmall, hne]
    · rw [List.mem_singleton, eq_comm]

/-- Escapes neither add line breaks nor take them away. -/
lemma lineFeed_mem_visible_iff (text : List Char) : '\n' ∈ visible text ↔ '\n' ∈ text := by
  rw [visible, List.mem_flatMap]
  simp only [lineFeed_mem_visibleChar_iff, exists_eq_right]

lemma splitOn_append {start : List Char} (h : '\n' ∉ start) (text : List Char) :
    (start ++ text).splitOn '\n' = (text.splitOn '\n').modifyHead (start ++ ·) := by
  induction start with
  | nil =>
    cases htext : text.splitOn '\n' <;> simp [htext]
  | cons c start ih =>
    have hc : (c == '\n') = false := by
      rw [beq_eq_false_iff_ne]
      exact fun heq => h (heq ▸ List.mem_cons_self)
    rw [List.cons_append, List.splitOn_cons_eq_if_modifyHead, hc,
      ih fun hmem => h (List.mem_cons_of_mem c hmem), List.modifyHead_modifyHead]
    rfl

lemma dropReturn_append {start : List Char} (h : start.getLast? ≠ some '\r') (line : List Char) :
    dropReturn (start ++ line) = start ++ dropReturn line := by
  unfold dropReturn
  by_cases hline : line = []
  · subst hline
    rw [List.append_nil, if_neg h, if_neg (by simp), List.append_nil]
  · rw [List.getLast?_append_of_ne_nil start hline, List.dropLast_append_of_ne_nil hline]
    split <;> rfl

end SelectTree.Text

namespace SelectTree.Command

open Text (dropReturn trimStart visible)

/-! ## Notes -/

/-- What the first line of a note opens with: the word for its level, and a space. -/
def opening (level : Level) : List Char :=
  (levelName level).toList ++ [' ']

/-- Whether a line opens like a note of a level. -/
def opensWith (level : Level) (line : String) : Bool :=
  (opening level).isPrefixOf line.toList

lemma opensWith_ofList (level : Level) (line : List Char) :
    opensWith level (String.ofList (opening level ++ line)) = true := by
  rw [opensWith, String.toList_ofList, List.isPrefixOf_iff_prefix]
  exact List.prefix_append _ _

/-- The two levels open with different words. -/
lemma opensWith_warning_of_detail (line : List Char) :
    opensWith .warning (String.ofList (opening .detail ++ line)) = false := by
  rw [opensWith, String.toList_ofList]
  rfl

/-- The lines of a note are those of its text, and the first of them opens with the level. -/
lemma noteLines_eq {note : Note} {line : List Char} {rest : List (List Char)}
    (h : (visible note.text.toList).splitOn '\n' = line :: rest) :
    noteLines note = String.ofList (opening note.level ++ dropReturn line) ::
      rest.map fun line => String.ofList (trimStart (dropReturn line)) := by
  -- each step on the way from the text to its lines leaves the opening as it is
  have hvisible : visible (opening note.level) = opening note.level := by
    cases note.level <;> decide
  have hfeed : '\n' ∉ opening note.level := by cases note.level <;> decide
  have hreturn : (opening note.level).getLast? ≠ some '\r' := by cases note.level <;> decide
  have htrim (line : List Char) :
      trimStart (opening note.level ++ line) = opening note.level ++ line := by
    cases note.level <;> rfl
  have htext : (levelName note.level ++ " " ++ note.text).toList =
      opening note.level ++ note.text.toList := by
    rw [String.toList_append, String.toList_append]
    rfl
  unfold noteLines
  dsimp only
  rw [htext, Text.visible_append, hvisible, Text.lines, Text.splitOn_append hfeed, h,
    List.modifyHead_cons, List.map_cons, List.map_cons, Text.dropReturn_append hreturn, htrim,
    List.map_map]
  rfl

/-- A note on one line is told in one line. -/
lemma exists_noteLines_eq {note : Note} (h : OneLine note.text) :
    ∃ line, noteLines note = [String.ofList (opening note.level ++ line)] := by
  have hfeed : '\n' ∉ visible note.text.toList := fun hmem =>
    h ((Text.lineFeed_mem_visible_iff _).mp hmem)
  exact ⟨_, noteLines_eq (List.splitOn_eq_singleton hfeed)⟩

/-- The lines of a detail do not open like a warning. -/
def Unmistakable (note : Note) : Prop :=
  ∀ line ∈ noteLines note, opensWith .warning line = false

lemma unmistakable_of_plain {note : Note} (hlevel : note.level = .detail) (h : note.IsPlain) :
    Unmistakable note := by
  obtain ⟨line, hline⟩ := exists_noteLines_eq h.oneLine
  rw [Unmistakable, hline, hlevel]
  intro line' hmem
  rw [List.mem_singleton.mp hmem]
  exact opensWith_warning_of_detail line

lemma filter_noteLines_of_warning {note : Note} (hlevel : note.level = .warning) :
    (noteLines note).filter (opensWith .warning) = noteLines note := by
  have hplain : note.IsPlain := by
    cases note with
    | extraStatements => exact trivial
    | _ => cases hlevel
  obtain ⟨line, hline⟩ := exists_noteLines_eq hplain.oneLine
  rw [hline, hlevel, List.filter_singleton, opensWith_ofList]
  rfl

/-! ## Logs -/

lemma logLines_cons (verbose : Bool) (note : Note) (notes : List Note) :
    logLines verbose (note :: notes) =
      (if verbose || note.level = .warning then noteLines note else []) ++
        logLines verbose notes := by
  unfold logLines
  rw [List.filter_cons]
  split <;> rfl

/-- The warnings are among the lines that open like one. -/
lemma logLines_sublist (notes : List Note) :
    (logLines false notes).Sublist ((logLines true notes).filter (opensWith .warning)) := by
  induction notes with
  | nil => exact .slnil
  | cons note notes ih =>
    rw [logLines_cons, logLines_cons, List.filter_append]
    refine List.Sublist.append ?_ ih
    cases hlevel : note.level with
    | warning =>
      simp [filter_noteLines_of_warning hlevel]
    | detail => simp

/-- The log of the warnings is the lines of the whole log that open like one exactly if no detail
can be taken for a warning. -/
theorem log_eq_warningLines_iff (notes : List Note) :
    logLines false notes = (logLines true notes).filter (opensWith .warning) ↔
      ∀ note ∈ notes, note.level = .detail → Unmistakable note := by
  induction notes with
  | nil => simp [logLines]
  | cons note notes ih =>
    have hsublist := logLines_sublist notes
    rw [logLines_cons, logLines_cons, List.filter_append, List.forall_mem_cons, ← ih]
    cases hlevel : note.level with
    | warning => simp [filter_noteLines_of_warning hlevel]
    | detail =>
      have hnil : (noteLines note).filter (opensWith .warning) = [] ↔ Unmistakable note := by
        rw [List.filter_eq_nil_iff]
        simp only [Unmistakable, Bool.not_eq_true]
      simp only [Bool.false_or, Bool.true_or, reduceCtorEq, decide_false, Bool.false_eq_true,
        if_false, if_true, List.nil_append, forall_const, ← hnil]
      constructor
      · intro heq
        -- a line that opens like a warning would make the right side longer than the left one
        have hlength : ((noteLines note).filter (opensWith .warning)).length = 0 := by
          have hlengths := congrArg List.length heq
          rw [List.length_append] at hlengths
          have hle := hsublist.length_le
          omega
        have hnone := List.length_eq_zero_iff.mp hlength
        rw [hnone, List.nil_append] at heq
        exact ⟨hnone, heq⟩
      · rintro ⟨hnone, heq⟩
        rw [hnone, List.nil_append]
        exact heq

end SelectTree.Command
