import Mathlib.Tactic.Lemma
import SelectTree.Proofs.Answer
import SelectTree.Proofs.SessionReuse

/-!
# The layouts of a parse result

Parsers answer in several layouts: a bare array or the `stmts` of an object, and in it statements as
they are, under `stmt`, or under the `stmt` of a `RawStmt`. `Holds` and `Lists` say what the layouts
are, without a word on how they are read.

`layouts_interchangeable` is the main result: all layouts of some statements are read as those
statements, and lowered as the first of them; and a parse result cannot be read exactly if it is in
no layout at all, or if some wrapper in it is empty.
-/

namespace SelectTree.Parse

/-! ## Layouts -/

/-- A value that wraps no statement, and so is none but its own. -/
structure IsBare (value : Json) : Prop where
  ne_null : value ≠ .null
  stmt : value.get? "stmt" = none
  rawStmt : value.get? "RawStmt" = none

/-- An entry of a parse result holds a statement. Beside a wrapped statement other keys may
stand. -/
inductive Holds (statement : Json) : Json → Prop
  | bare : Holds statement statement
  | rawStmt {fields inner : Json.Fields} :
    fields.lookup "stmt" = none → fields.lookup "RawStmt" = some (.object inner) →
    inner.lookup "stmt" = some statement → Holds statement (.object fields)
  | stmt {fields : Json.Fields} :
    fields.lookup "stmt" = some statement → Holds statement (.object fields)

/-- A parse result lists its entries, alone or as the `stmts` of an object. -/
inductive Lists (entries : List Json) : Json → Prop
  | array : Lists entries (.array entries)
  | object {fields : Json.Fields} :
    fields.lookup "stmts" = some (.array entries) → Lists entries (.object fields)

/-- An entry is a `RawStmt` without a statement in it. -/
def IsHollow (entry : Json) : Prop :=
  entry.get? "stmt" = none ∧ ∃ raw, entry.get? "RawStmt" = some raw ∧
    (raw.get? "stmt" = none ∨ raw.get? "stmt" = some .null)

/-- The error about an entry that is hollow. -/
def noStatementInside : Error :=
  .invalidAttribute "RawStmt" "stmt" .missing

/-! ## Reading the layouts -/

lemma entries_eq_ok_iff {tree : Json} {list : List Json} :
    entries tree = .ok list ↔ Lists list tree := by
  constructor
  · intro h
    unfold entries at h
    split at h
    · cases h
      exact .array
    · split at h
      · next hstmts =>
        cases h
        exact .object hstmts
      · cases h
      · cases h
    · cases h
  · intro h
    cases h with
    | array => rfl
    | object hstmts => simp only [entries, hstmts]

lemma unwrap_of_holds {statement entry : Json} (hbare : IsBare statement)
    (h : Holds statement entry) : unwrap entry = .ok statement := by
  cases h with
  | bare => simp only [unwrap, hbare.stmt, hbare.rawStmt]
  | rawStmt hstmt hraw hinner =>
    simp only [unwrap, Json.get?, hstmt, hraw, hinner]
    -- the one statement that a `RawStmt` may not hold is `null`
    cases statement with
    | null => exact absurd rfl hbare.ne_null
    | _ => rfl
  | stmt hstmt => simp only [unwrap, Json.get?, hstmt]

lemma unwrap_eq_error_iff {entry : Json} {error : Error} :
    unwrap entry = .error error ↔ IsHollow entry ∧ error = noStatementInside := by
  unfold unwrap IsHollow
  cases hstmt : entry.get? "stmt" with
  | some statement => simp
  | none =>
    cases hraw : entry.get? "RawStmt" with
    | none => simp
    | some raw =>
      rcases hinner : raw.get? "stmt" with _ | (_ | _ | _ | _ | _ | _) <;>
        simp [hinner, noStatementInside, Kind.tag, eq_comm]

/-- One hollow entry spoils a list, wherever it stands. -/
lemma mapM_unwrap_eq_error_iff {list : List Json} {error : Error} :
    list.mapM unwrap = .error error ↔
      (∃ entry ∈ list, IsHollow entry) ∧ error = noStatementInside := by
  induction list with
  | nil => simp [pure, Except.pure]
  | cons entry rest ih =>
    rw [List.mapM_cons]
    cases hentry : unwrap entry with
    | error error' =>
      obtain ⟨hhollow, rfl⟩ := unwrap_eq_error_iff.mp hentry
      simp [hhollow, eq_comm]
    | ok statement =>
      have hfull : ¬ IsHollow entry := fun hhollow => by
        rw [unwrap_eq_error_iff.mpr ⟨hhollow, rfl⟩] at hentry
        cases hentry
      have hrest : (Except.ok statement >>= fun first =>
          rest.mapM unwrap >>= fun others => pure (first :: others)) = .error error ↔
          rest.mapM unwrap = .error error := by
        cases rest.mapM unwrap <;> simp [pure, Except.pure]
      rw [hrest, ih]
      simp [hfull]

lemma statements_of_lists {tree : Json} {list : List Json} (h : Lists list tree) :
    statements tree = list.mapM unwrap := by
  rw [statements, entries_eq_ok_iff.mpr h]
  rfl

lemma statements_of_holds {tree : Json} {list held : List Json} (hlists : Lists list tree)
    (hbare : ∀ statement ∈ held, IsBare statement) (hheld : List.Forall₂ Holds held list) :
    statements tree = .ok held := by
  rw [statements_of_lists hlists, Lower.mapM_eq_ok_iff]
  refine ((List.forall₂_and_left _ _).mpr ⟨hbare, hheld⟩).flip.imp ?_
  rintro entry statement ⟨hstatement, hentry⟩
  exact unwrap_of_holds hstatement hentry

/-- A parse result cannot be read exactly if it is in no layout, or if an entry of it is hollow. -/
lemma exists_statements_error_iff {tree : Json} :
    (∃ error, statements tree = .error error) ↔
      (∀ list, ¬ Lists list tree) ∨ ∃ list, Lists list tree ∧ ∃ entry ∈ list, IsHollow entry := by
  cases hentries : entries tree with
  | error error =>
    have hnone (list : List Json) : ¬ Lists list tree := fun hlist => by
      rw [entries_eq_ok_iff.mpr hlist] at hentries
      cases hentries
    have hstatements : statements tree = .error error := by
      rw [statements, hentries]
      rfl
    exact ⟨fun _ => .inl hnone, fun _ => ⟨error, hstatements⟩⟩
  | ok list =>
    have hlist : Lists list tree := entries_eq_ok_iff.mp hentries
    have honly {list' : List Json} (hlist' : Lists list' tree) : list' = list := by
      rw [entries_eq_ok_iff.mpr hlist'] at hentries
      exact Except.ok.inj hentries
    simp only [statements_of_lists hlist, mapM_unwrap_eq_error_iff]
    constructor
    · rintro ⟨_, hhollow, _⟩
      exact .inr ⟨list, hlist, hhollow⟩
    · rintro (hnone | ⟨list', hlist', hhollow⟩)
      · exact absurd hlist (hnone list)
      · obtain rfl := honly hlist'
        exact ⟨noStatementInside, hhollow, rfl⟩

end SelectTree.Parse

namespace SelectTree

open Parse (Holds IsBare IsHollow Lists tagged)

/-! ## Lowering the layouts -/

/-- The first of some statements as a session lowers it. -/
def Session.first (session : Session) : List Json → Except Error Query.Select
  | [] => .error .noStatements
  | statement :: _ => (session.statement statement).1.result

/-- A parse result is lowered as its first statement; the others leave nothing but notes. -/
lemma tree_result (session : Session) (tree : Json) :
    (session.tree tree).1.result = Parse.statements tree >>= session.first := by
  rcases hheld : Parse.statements tree with error | (_ | ⟨statement, rest⟩)
  · rw [Session.tree, Session.call, Lower.tree, Lower.firstStatement, Lower.liftM_eq, hheld]
    rfl
  · rw [Session.tree, Session.call, Lower.tree, Lower.firstStatement, Lower.liftM_eq, hheld]
    rfl
  · have hfirst : ((Lower.firstStatement tree).run session.config session.depth).result =
        .ok statement := by
      rw [Lower.firstStatement, Lower.liftM_eq, hheld, Lower.run_bind, Lower.run_ofReading_ok,
        Outcome.andThen_ok]
      dsimp only
      split <;> rfl
    rw [Session.tree, Session.call, Lower.tree, Lower.run_bind]
    dsimp only
    rw [(Outcome.andThen_of_ok _ hfirst).1, Lower.steady_firstStatement]
    rfl

/-- **The layouts of a parse result are interchangeable.** However some statements are laid out,
they are read in order, and the parse result is lowered as the first of them alone. A parse result
cannot be read exactly if it lists no entries, or if it lists a `RawStmt` without a statement,
wherever that stands; and then the statement is what is missing. -/
theorem layouts_interchangeable :
    (∀ held list tree, (∀ statement ∈ held, IsBare statement) → List.Forall₂ Holds held list →
      Lists list tree → Parse.statements tree = .ok held ∧
        ∀ session : Session, (session.tree tree).1.result = session.first held) ∧
    ∀ tree, ((∃ error, Parse.statements tree = .error error) ↔
        (∀ list, ¬ Lists list tree) ∨ ∃ list, Lists list tree ∧ ∃ entry ∈ list, IsHollow entry) ∧
      ∀ list, Lists list tree → (∃ entry ∈ list, IsHollow entry) →
        Parse.statements tree = .error (.invalidAttribute "RawStmt" "stmt" .missing) := by
  refine ⟨fun held list tree hbare hheld hlist => ?_, fun tree => ⟨?_, fun list hlist hhollow => ?_⟩⟩
  · have hstatements := Parse.statements_of_holds hlist hbare hheld
    refine ⟨hstatements, fun session => ?_⟩
    rw [tree_result, hstatements, Lower.ok_bind]
  · exact Parse.exists_statements_error_iff
  · rw [Parse.statements_of_lists hlist]
    exact Parse.mapM_unwrap_eq_error_iff.mpr ⟨hhollow, rfl⟩

/-- Two statements, each as it stands alone. -/
def twoStatements : List Json :=
  [tagged .selectStmt [("targetList", .array [tagged .aStar []])], tagged .insertStmt []]

/-- A parse result that holds `twoStatements`, the first in a `RawStmt` and the second under
`stmt`. -/
def wrappedStatements : Json :=
  .object [("version", .ofNat 10), ("stmts", .array [
    .object [("RawStmt", .object [("stmt_len", .ofNat 8),
      ("stmt", tagged .selectStmt [("targetList", .array [tagged .aStar []])])])],
    .object [("stmt", tagged .insertStmt []), ("stmt_len", .null)]])]

/-- A parse result whose second entry is hollow. -/
def hollowStatements : Json :=
  .array [tagged .selectStmt [], .object [("RawStmt", .object [("stmt", .null)])]]

theorem layouts_interchangeable_wrappedStatements :
    (Parse.statements wrappedStatements = .ok twoStatements ∧
      (Session.tree {} wrappedStatements).1.result = .ok { projections := [.star] }) ∧
    Parse.statements hollowStatements = .error (.invalidAttribute "RawStmt" "stmt" .missing) := by
  have hbare : ∀ statement ∈ twoStatements, IsBare statement := by
    simp only [twoStatements, List.forall_mem_cons, List.not_mem_nil]
    exact ⟨⟨by simp [tagged], rfl, rfl⟩, ⟨by simp [tagged], rfl, rfl⟩, fun _ => False.elim⟩
  obtain ⟨hread, hlowered⟩ := layouts_interchangeable.1 twoStatements _ wrappedStatements hbare
    (.cons (.rawStmt rfl rfl rfl) (.cons (.stmt rfl) .nil)) (.object rfl)
  refine ⟨⟨hread, (hlowered {}).trans rfl⟩, ?_⟩
  exact (layouts_interchangeable.2 hollowStatements).2 _ .array
    ⟨.object [("RawStmt", .object [("stmt", .null)])], by simp, rfl, _, rfl, .inr rfl⟩

end SelectTree
