import Mathlib.Tactic.Lemma
import SelectTree.Lower.Statement
import SelectTree.Proofs.Attributes

/-!
# Steps and their depth

A step of lowering is started at a depth and stopped when it passes the limit. This file separates
what a step answers from how deep it goes:

* `answer`, the answer that no limit stops;
* `Metered step cost`: under every limit the step gives its answer if the limit leaves room for
  `cost` more levels, and reports the limit otherwise;
* `Needs step levels`: the step is metered, and if it answers well its cost is exactly `levels`.

The rules for `Needs` follow the ways in which steps are put together, so that the cost of a rule of
lowering is read off its text.
-/

namespace SelectTree

namespace Outcome

variable {α β : Type}

lemma andThen_of_ok {outcome : Outcome α} {a : α} (next : α → Nat → Outcome β)
    (h : outcome.result = .ok a) :
    (outcome.andThen next).result = (next a outcome.depth).result ∧
      (outcome.andThen next).depth = (next a outcome.depth).depth := by
  rcases outcome with ⟨_ | b, notes, depth⟩
  · cases h
  · cases h
    exact ⟨rfl, rfl⟩

lemma andThen_of_error {outcome : Outcome α} {error : Error} (next : α → Nat → Outcome β)
    (h : outcome.result = .error error) :
    (outcome.andThen next).result = .error error ∧
      (outcome.andThen next).depth = outcome.depth := by
  rcases outcome with ⟨_ | b, notes, depth⟩
  · cases h
    exact ⟨rfl, rfl⟩
  · cases h

end Outcome

namespace Lower

variable {α β γ : Type}

/-! ## The answer without a limit -/

/-- The configuration with the greatest limit there is. -/
def limitless : Config := { maxDepth := UInt64.ofNat depthCeiling }

@[simp] lemma toNat_maxDepth_limitless : limitless.maxDepth.toNat = depthCeiling := by
  decide

/-- What a step answers when no limit stops it. -/
def answer (step : Lower α) : Except Error α :=
  (step.run limitless 0).result

/-- Without a limit the step ends at the depth that it started from. -/
def Settled (step : Lower α) : Prop :=
  (step.run limitless 0).depth = 0

/-- A sequence answers what its second part answers after the answer of the first. -/
lemma answer_bind {step : Lower α} (h : Settled step) (next : α → Lower β) :
    answer (step >>= next) = answer step >>= fun a => answer (next a) := by
  rw [answer, run_bind]
  cases ha : answer step with
  | error error => exact (Outcome.andThen_of_error _ ha).1
  | ok a =>
    rw [(Outcome.andThen_of_ok _ ha).1, h]
    rfl

/-- Whether a limit leaves room for `cost` levels below `depth`. -/
def Fits (config : Config) (depth cost : Nat) : Prop :=
  min (depth + cost) depthCeiling ≤ config.maxDepth.toNat

instance (config : Config) (depth cost : Nat) : Decidable (Fits config depth cost) :=
  inferInstanceAs (Decidable (_ ≤ _))

lemma fits_limitless (depth cost : Nat) : Fits limitless depth cost := by
  rw [Fits, toNat_maxDepth_limitless]
  omega

lemma fits_max {config : Config} {depth m n : Nat} :
    Fits config depth (max m n) ↔ Fits config depth m ∧ Fits config depth n := by
  simp only [Fits]
  omega

lemma Fits.mono {config : Config} {depth depth' m n : Nat} (h : Fits config depth m)
    (hd : depth' ≤ depth) (hn : n ≤ m) : Fits config depth' n := by
  simp only [Fits] at h ⊢
  omega

/-- The error is about the tree, not about the limit. -/
def NotDepth (error : Error) : Prop :=
  ∀ limit, error ≠ .depthExceeded limit

/-- `step` goes `cost` levels down: from a depth within the limit it puts the depth back where it
was, and it gives its answer if there is room for `cost` levels and reports the limit otherwise. -/
structure Metered (step : Lower α) (cost : Nat) : Prop where
  depth_run : ∀ config depth, Fits config depth 0 → (step.run config depth).depth = depth
  result_run : ∀ config depth, Fits config depth 0 →
    (step.run config depth).result =
      if Fits config depth cost then answer step else .error (.depthExceeded config.maxDepth)
  notDepth : ∀ error, answer step = .error error → NotDepth error

namespace Metered

variable {step : Lower α} {next : α → Lower β} {m n : Nat}

lemma result_of_fits (h : Metered step m) {config : Config} {depth : Nat}
    (hfits : Fits config depth m) : (step.run config depth).result = answer step := by
  rw [h.result_run config depth (hfits.mono (Nat.le_refl depth) (Nat.zero_le m)), if_pos hfits]

lemma result_of_not_fits (h : Metered step m) {config : Config} {depth : Nat}
    (h0 : Fits config depth 0) (hfits : ¬ Fits config depth m) :
    (step.run config depth).result = .error (.depthExceeded config.maxDepth) := by
  rw [h.result_run config depth h0, if_neg hfits]

lemma settled (h : Metered step m) : Settled step :=
  h.depth_run _ _ (fits_limitless 0 0)

lemma answer_bind_of_ok (h : Metered step m) {a : α} (ha : answer step = .ok a)
    (next : α → Lower β) : answer (step >>= next) = answer (next a) := by
  rw [answer_bind h.settled, ha]
  rfl

lemma answer_bind_of_error (h : Metered step m) {error : Error} (he : answer step = .error error)
    (next : α → Lower β) : answer (step >>= next) = .error error := by
  rw [answer_bind h.settled, he]
  rfl

/-- A step that stops at the limit stops the sequence. -/
lemma run_bind_of_not_fits (h : Metered step m) {config : Config} {depth : Nat}
    (h0 : Fits config depth 0) (hm : ¬ Fits config depth m) (next : α → Lower β) :
    ((step >>= next).run config depth).depth = depth ∧
      ((step >>= next).run config depth).result = .error (.depthExceeded config.maxDepth) := by
  obtain ⟨hresult, hdepth⟩ := Outcome.andThen_of_error
    (fun a depth => (next a).run config depth) (h.result_of_not_fits h0 hm)
  rw [run_bind]
  exact ⟨hdepth.trans (h.depth_run config depth h0), hresult⟩

lemma bind_ok (h : Metered step m) {a : α} (ha : answer step = .ok a)
    (hnext : Metered (next a) n) : Metered (step >>= next) (max m n) := by
  have hanswer := h.answer_bind_of_ok ha next
  -- where the first part fits, the sequence runs as its second part
  have hrun : ∀ config depth, Fits config depth 0 → Fits config depth m →
      ((step >>= next).run config depth).depth = depth ∧
        ((step >>= next).run config depth).result = ((next a).run config depth).result := by
    intro config depth h0 hm
    obtain ⟨hresult, hdepth⟩ := Outcome.andThen_of_ok
      (fun a depth => (next a).run config depth) ((h.result_of_fits hm).trans ha)
    rw [run_bind, hresult, hdepth, h.depth_run config depth h0]
    exact ⟨hnext.depth_run config depth h0, rfl⟩
  refine ⟨fun config depth h0 => ?_, fun config depth h0 => ?_, ?_⟩
  · by_cases hm : Fits config depth m
    · exact (hrun config depth h0 hm).1
    · exact (h.run_bind_of_not_fits h0 hm next).1
  · by_cases hm : Fits config depth m
    · rw [(hrun config depth h0 hm).2, hnext.result_run config depth h0, hanswer]
      simp only [fits_max, hm, true_and]
    · rw [(h.run_bind_of_not_fits h0 hm next).2, if_neg (fun hmax => hm (fits_max.mp hmax).1)]
  · rw [hanswer]
    exact hnext.notDepth

lemma bind_error (h : Metered step m) {error : Error} (he : answer step = .error error)
    (next : α → Lower β) : Metered (step >>= next) m := by
  have hanswer := h.answer_bind_of_error he next
  have hrun : ∀ config depth, Fits config depth 0 → Fits config depth m →
      ((step >>= next).run config depth).depth = depth ∧
        ((step >>= next).run config depth).result = .error error := by
    intro config depth h0 hm
    obtain ⟨hresult, hdepth⟩ := Outcome.andThen_of_error
      (fun a depth => (next a).run config depth) ((h.result_of_fits hm).trans he)
    rw [run_bind]
    exact ⟨hdepth.trans (h.depth_run config depth h0), hresult⟩
  refine ⟨fun config depth h0 => ?_, fun config depth h0 => ?_, ?_⟩
  · by_cases hm : Fits config depth m
    · exact (hrun config depth h0 hm).1
    · exact (h.run_bind_of_not_fits h0 hm next).1
  · by_cases hm : Fits config depth m
    · rw [(hrun config depth h0 hm).2, if_pos hm, hanswer]
    · rw [(h.run_bind_of_not_fits h0 hm next).2, if_neg hm]
  · intro error' heq
    rw [hanswer] at heq
    cases heq
    exact h.notDepth error he

/-- A step `weight` levels down answers what the step answers, and costs as much more. -/
lemma descend (h : Metered step n) (weight : Nat) :
    answer (descend weight step) = answer step ∧
      Metered (Lower.descend weight step) (weight + n) := by
  -- the counter after the step down fits exactly if the weight does
  have hrun : ∀ config depth, Fits config depth weight →
      ((Lower.descend weight step).run config depth).result =
        (step.run config (min (depth + weight) depthCeiling)).result := by
    intro config depth hfits
    rw [Fits] at hfits
    simp only [Lower.descend, run, if_neg (Nat.not_lt.mpr hfits)]
  have hshift : ∀ config depth cost, Fits config (min (depth + weight) depthCeiling) cost ↔
      Fits config depth (weight + cost) := by
    intro config depth cost
    simp only [Fits]
    omega
  have hanswer : answer (Lower.descend weight step) = answer step := by
    rw [answer, hrun _ _ (fits_limitless 0 weight), h.result_of_fits (fits_limitless _ n)]
  refine ⟨hanswer, fun config depth _ => depth_descend weight step config depth, ?_, ?_⟩
  · intro config depth h0
    by_cases hw : Fits config depth weight
    · have hw0 : Fits config (min (depth + weight) depthCeiling) 0 := (hshift config depth 0).mpr hw
      rw [hrun config depth hw, h.result_run config _ hw0, hanswer]
      simp only [hshift]
    · have hn : ¬ Fits config depth (weight + n) := fun hn =>
        hw (hn.mono (Nat.le_refl depth) (Nat.le_add_right weight n))
      rw [if_neg hn]
      rw [Fits, Nat.not_le] at hw
      simp only [Lower.descend, run, if_pos hw]
  · rw [hanswer]
    exact h.notDepth

end Metered

/-! ## Primitive steps -/

@[simp] lemma answer_pure (a : α) : answer (pure a : Lower α) = .ok a := rfl

@[simp] lemma answer_fail (error : Error) : answer (fail error : Lower α) = .error error := rfl

@[simp] lemma answer_ofReading (reading : Except Error α) :
    answer (ofReading reading) = reading := by
  cases reading <;> rfl

lemma metered_pure (a : α) : Metered (pure a : Lower α) 0 := by
  refine ⟨fun _ _ _ => rfl, fun config depth h0 => ?_, fun error h => ?_⟩
  · rw [if_pos h0]
    rfl
  · cases h

lemma metered_note (taken : Note) : Metered (note taken) 0 := by
  refine ⟨fun _ _ _ => rfl, fun config depth h0 => ?_, fun error h => ?_⟩
  · rw [if_pos h0]
    rfl
  · cases h

lemma metered_ofReading {reading : Except Error α}
    (h : ∀ error, reading = .error error → NotDepth error) : Metered (ofReading reading) 0 := by
  refine ⟨fun _ _ _ => ?_, fun config depth h0 => ?_, ?_⟩
  · cases reading <;> rfl
  · rw [if_pos h0]
    cases reading <;> rfl
  · rw [answer_ofReading]
    exact h

lemma metered_fail {error : Error} (h : NotDepth error) : Metered (fail error : Lower α) 0 := by
  refine ⟨fun _ _ _ => rfl, fun config depth h0 => ?_, ?_⟩
  · rw [if_pos h0]
    rfl
  · rintro _ ⟨⟩
    exact h

/-! ## The levels a step needs -/

/-- `step` is metered, and if its answer is good it needs exactly `levels` levels. A step that
fails may go less deep. -/
def Needs (step : Lower α) (levels : Nat) : Prop :=
  ∃ cost, Metered step cost ∧ ∀ a, answer step = .ok a → cost = levels

/-- The greatest of some numbers of levels; zero if there are none. -/
def greatest (levels : List Nat) : Nat :=
  levels.foldr max 0

@[simp] lemma greatest_nil : greatest [] = 0 := rfl

@[simp] lemma greatest_cons (n : Nat) (levels : List Nat) :
    greatest (n :: levels) = max n (greatest levels) := rfl

@[simp] lemma greatest_append (levels levels' : List Nat) :
    greatest (levels ++ levels') = max (greatest levels) (greatest levels') := by
  induction levels with
  | nil => simp
  | cons n levels ih => simp [ih, Nat.max_assoc]

lemma le_greatest {n : Nat} {levels : List Nat} (h : n ∈ levels) : n ≤ greatest levels := by
  induction levels with
  | nil => cases h
  | cons k levels ih =>
    rw [greatest_cons]
    rcases List.mem_cons.mp h with rfl | h
    · exact Nat.le_max_left _ _
    · exact Nat.le_trans (ih h) (Nat.le_max_right _ _)

namespace Needs

variable {step : Lower α} {next : α → Lower β} {m n : Nat}

lemma metered (h : Needs step n) : ∃ cost, Metered step cost :=
  h.imp fun _ => And.left

lemma settled (h : Needs step n) : Settled step := by
  obtain ⟨cost, h⟩ := h.metered
  exact h.settled

/-- A step gives a good result exactly if its answer is good and the limit leaves room for it. -/
lemma result_eq_ok_iff (h : Needs step n) {config : Config} {depth : Nat}
    (h0 : Fits config depth 0) {a : α} :
    (step.run config depth).result = .ok a ↔ answer step = .ok a ∧ Fits config depth n := by
  obtain ⟨cost, hcost, hlevels⟩ := h
  rw [hcost.result_run config depth h0]
  split
  · next hfits => exact ⟨fun ha => ⟨ha, hlevels a ha ▸ hfits⟩, And.left⟩
  · next hfits =>
    constructor
    · rintro ⟨⟩
    · rintro ⟨ha, hroom⟩
      exact absurd (hlevels a ha ▸ hroom) hfits

lemma of_metered (h : Metered step n) : Needs step n :=
  ⟨n, h, fun _ _ => rfl⟩

lemma of_eq (h : Needs step m) (heq : m = n) : Needs step n :=
  heq ▸ h

lemma of_error {error : Error} (h : Metered step m) (he : answer step = .error error) (n : Nat) :
    Needs step n :=
  ⟨m, h, fun a ha => by rw [he] at ha; cases ha⟩

protected lemma pure (a : α) : Needs (pure a : Lower α) 0 :=
  of_metered (metered_pure a)

protected lemma note (taken : Note) : Needs (note taken) 0 :=
  of_metered (metered_note taken)

protected lemma fail {error : Error} (h : NotDepth error) (n : Nat) :
    Needs (fail error : Lower α) n :=
  of_error (metered_fail h) rfl n

protected lemma bind (h : Needs step m) (hnext : ∀ a, answer step = .ok a → Needs (next a) n) :
    Needs (step >>= next) (max m n) := by
  obtain ⟨cost, hcost, hlevels⟩ := h
  cases ha : answer step with
  | error error =>
    exact of_error (hcost.bind_error ha next) (hcost.answer_bind_of_error ha next) _
  | ok a =>
    obtain ⟨cost', hcost', hlevels'⟩ := hnext a ha
    refine ⟨max cost cost', hcost.bind_ok ha hcost', fun b hb => ?_⟩
    rw [hcost.answer_bind_of_ok ha] at hb
    rw [hlevels a ha, hlevels' b hb]

/-- A reading costs nothing. -/
lemma reading {reading : Except Error α} (h : ∀ error, reading = .error error → NotDepth error)
    (hnext : ∀ a, reading = .ok a → Needs (next a) n) : Needs (ofReading reading >>= next) n := by
  have hbind : Needs (ofReading reading >>= next) (max 0 n) :=
    (of_metered (metered_ofReading h)).bind fun a ha => hnext a (by rwa [answer_ofReading] at ha)
  rwa [Nat.zero_max] at hbind

/-- A refusal costs nothing, and what follows it may use that nothing was refused. -/
lemma refuse {condition : Bool} {error : Error} {next : Unit → Lower β} (h : NotDepth error)
    (hnext : condition = false → Needs (next ()) n) :
    Needs (refuse condition error >>= next) n := by
  cases condition with
  | true =>
    have hfail : Metered (fail error : Lower Unit) 0 := metered_fail h
    exact of_error (hfail.bind_error rfl next) (hfail.answer_bind_of_error rfl next) n
  | false =>
    have hbind : Needs (Lower.refuse false error >>= next) (max 0 n) :=
      (Needs.pure ()).bind fun _ _ => hnext rfl
    rwa [Nat.zero_max] at hbind

/-- A last step that costs nothing more. -/
lemma bind_pure (h : Needs step n) (hnext : ∀ a, answer step = .ok a → Needs (next a) 0) :
    Needs (step >>= next) n := by
  have hbind := h.bind hnext
  rwa [Nat.max_zero] at hbind

protected lemma descend (h : Needs step n) (weight : Nat) :
    Needs (descend weight step) (weight + n) := by
  obtain ⟨cost, hcost, hlevels⟩ := h
  obtain ⟨hanswer, hmetered⟩ := hcost.descend weight
  refine ⟨weight + cost, hmetered, fun a ha => ?_⟩
  rw [hlevels a (hanswer ▸ ha)]

lemma answer_descend (h : Needs step n) (weight : Nat) :
    answer (Lower.descend weight step) = answer step := by
  obtain ⟨cost, hcost⟩ := h.metered
  exact (hcost.descend weight).1

protected lemma mapM {f : γ → Lower α} {levels : γ → Nat} {xs : List γ}
    (h : ∀ x ∈ xs, Needs (f x) (levels x)) : Needs (xs.mapM f) (greatest (xs.map levels)) := by
  induction xs with
  | nil => exact Needs.pure []
  | cons x xs ih =>
    rw [List.mapM_cons, List.map_cons, greatest_cons]
    refine (h x List.mem_cons_self).bind fun a _ => ?_
    exact (ih fun y hy => h y (List.mem_cons_of_mem x hy)).bind_pure fun _ _ => Needs.pure _

end Needs

end Lower

end SelectTree
