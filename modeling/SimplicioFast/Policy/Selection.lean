import SimplicioFast.Policy.Frontier

/-!
# Selections and the context

`ParetoPolicy.decide` merges the context with the keyword arguments of the call, and what it selects meets the limits
that come out.  `select_representation` hands its threshold on as such an argument also where its caller gave none: then
its default of 0 takes the place of the threshold of the context (`respects_iff`).

The values have the annotated types, and a number is a finite float.  `generation` is only checked.
-/

namespace SimplicioFast

namespace Pareto

/-! ## Limits -/

/-- The limits of a choice; those that are `none` hold for every candidate. -/
structure Limits where
  qualityThreshold : Option ℚ
  residentBytes : Option ℤ
  peakBytes : Option ℤ
  bytesPerToken : Option ℚ
  kvBytesPerToken : Option ℚ

/-- The limits of `l`, and those of `m` where `l` has none. -/
def Limits.or (l m : Limits) : Limits where
  qualityThreshold := l.qualityThreshold <|> m.qualityThreshold
  residentBytes := l.residentBytes <|> m.residentBytes
  peakBytes := l.peakBytes <|> m.peakBytes
  bytesPerToken := l.bytesPerToken <|> m.bytesPerToken
  kvBytesPerToken := l.kvBytesPerToken <|> m.kvBytesPerToken

def PolicyContext.limits (c : PolicyContext) : Limits where
  qualityThreshold := c.qualityThreshold
  residentBytes := c.residentBudgetBytes.map (↑)
  peakBytes := c.peakBudgetBytes.map (↑)
  bytesPerToken := c.bytesPerTokenBudget
  kvBytesPerToken := c.kvBytesPerTokenBudget

/-- A measured value is there and within the budget. -/
def Within {α : Type} [LE α] (value budget : Option α) : Prop := ∀ b ∈ budget, ∃ v ∈ value, v ≤ b

/-- The candidate meets the limits; an unknown value meets no budget. -/
structure Meets (l : Limits) (c : RepresentationCandidate) : Prop where
  quality : ∀ t ∈ l.qualityThreshold, t ≤ c.quality
  residentBytes : Within (c.residentBytes.map (↑)) l.residentBytes
  peakBytes : Within (c.peakBytes.map (↑)) l.peakBytes
  bytesPerToken : Within c.bytesPerToken l.bytesPerToken
  kvBytesPerToken : Within c.kvBytesPerToken l.kvBytesPerToken

/-! ## The context of a call -/

/-- An entry of a mapping: it may be absent, and its value may be `None`. -/
abbrev Entry (α : Type) : Type := Option (Option α)

/-- The entry `budgets` of a context that is a mapping. -/
structure Budgets where
  residentBytes : Option ℤ := none
  peakBytes : Option ℤ := none
  bytesPerToken : Option ℚ := none
  kvBytesPerToken : Option ℚ := none

/-- A context that is a mapping, with the keys that `from_mapping` reads. -/
structure ContextMapping where
  generation : Option PyStr := none
  hardwareFingerprint : Entry PyStr := none
  hardware : Entry PyStr := none
  contextFingerprint : Entry PyStr := none
  context : Entry PyStr := none
  workloadFingerprint : Entry PyStr := none
  workload : Entry PyStr := none
  residentBudgetBytes : Entry ℤ := none
  maxResidentBytes : Entry ℤ := none
  peakBudgetBytes : Entry ℤ := none
  maxPeakBytes : Entry ℤ := none
  bytesPerTokenBudget : Entry ℚ := none
  maxBytesPerToken : Entry ℚ := none
  kvBytesPerTokenBudget : Entry ℚ := none
  maxKvBytesPerToken : Entry ℚ := none
  budgets : Budgets := {}
  qualityThreshold : Option ℚ := none

/-- The limits as `from_mapping` looks them up. -/
def ContextMapping.limits (value : ContextMapping) : Limits where
  qualityThreshold := value.qualityThreshold
  residentBytes := value.residentBudgetBytes.getD (value.maxResidentBytes.getD value.budgets.residentBytes)
  peakBytes := value.peakBudgetBytes.getD (value.maxPeakBytes.getD value.budgets.peakBytes)
  bytesPerToken := value.bytesPerTokenBudget.getD (value.maxBytesPerToken.getD value.budgets.bytesPerToken)
  kvBytesPerToken := value.kvBytesPerTokenBudget.getD (value.maxKvBytesPerToken.getD value.budgets.kvBytesPerToken)

/-- `_text` of the identities. -/
def checkIdentity (value : Option PyStr) : Except ParetoFailure PyStr :=
  match value with
  | some s => if s.strip = [] then .error (.rejected "context_identity_invalid") else .ok s
  | none => .error (.rejected "context_identity_invalid")

/-- `_integer` of a budget that is not `None`. -/
def checkInteger (value : Option ℤ) : Except ParetoFailure (Option ℕ) :=
  if value.any (· < 0) then .error (.rejected "context_budget_invalid") else .ok (value.map Int.toNat)

/-- `_number` of a value that is not `None`. -/
def checkNumber (reason : PyStr) (value : Option ℚ) : Except ParetoFailure (Option ℚ) :=
  if value.any (· < 0) then .error (.rejected reason) else .ok value

/-- `_number` of a threshold, which is at most 1. -/
def checkThreshold (value : Option ℚ) : Except ParetoFailure (Option ℚ) := do
  let threshold ← checkNumber "quality_threshold_invalid" value
  if threshold.any (1 < ·) then .error (.rejected "quality_threshold_invalid") else .ok threshold

/-- `PolicyContext.from_mapping`, with `__post_init__`. -/
def PolicyContext.fromMapping (value : ContextMapping) : Except ParetoFailure PolicyContext := do
  let _ ← checkIdentity value.generation
  let hardwareFingerprint ← checkIdentity (value.hardwareFingerprint.getD (value.hardware.getD (some "unknown")))
  let contextFingerprint ← checkIdentity (value.contextFingerprint.getD (value.context.getD (some "unknown")))
  let workloadFingerprint ← checkIdentity (value.workloadFingerprint.getD (value.workload.getD (some "unknown")))
  let residentBudgetBytes ← checkInteger value.limits.residentBytes
  let peakBudgetBytes ← checkInteger value.limits.peakBytes
  let bytesPerTokenBudget ← checkNumber "context_budget_invalid" value.limits.bytesPerToken
  let kvBytesPerTokenBudget ← checkNumber "context_budget_invalid" value.limits.kvBytesPerToken
  let qualityThreshold ← checkThreshold value.limits.qualityThreshold
  return ⟨hardwareFingerprint, contextFingerprint, workloadFingerprint, residentBudgetBytes, peakBudgetBytes,
    bytesPerTokenBudget, kvBytesPerTokenBudget, qualityThreshold⟩

/-- The argument `context`. -/
inductive GivenContext
  | none
  | context (generation : PyStr) (c : PolicyContext)
  | mapping (value : ContextMapping)

/-- The mapping that `_context` starts from: of a context, `to_dict` without `budgets`. -/
def GivenContext.values : GivenContext → ContextMapping
  | none => {}
  | context generation c =>
    { generation := some generation
      hardwareFingerprint := some (some c.hardwareFingerprint)
      contextFingerprint := some (some c.contextFingerprint)
      workloadFingerprint := some (some c.workloadFingerprint)
      residentBudgetBytes := some c.limits.residentBytes
      peakBudgetBytes := some c.limits.peakBytes
      bytesPerTokenBudget := some c.bytesPerTokenBudget
      kvBytesPerTokenBudget := some c.kvBytesPerTokenBudget
      qualityThreshold := c.qualityThreshold }
  | mapping value => value

/-- The keyword arguments of `decide`, but for `quality_threshold`. -/
structure Arguments where
  generation : Option PyStr := none
  hardwareFingerprint : Option PyStr := none
  contextFingerprint : Option PyStr := none
  workloadFingerprint : Option PyStr := none
  residentBudgetBytes : Option ℤ := none
  peakBudgetBytes : Option ℤ := none
  bytesPerTokenBudget : Option ℚ := none
  kvBytesPerTokenBudget : Option ℚ := none
  memoryBudgetBytes : Option ℤ := none
  maxResidentBytes : Option ℤ := none
  maxPeakBytes : Option ℤ := none
  maxBytesPerToken : Option ℚ := none
  maxKvBytesPerToken : Option ℚ := none

/-- The limits among the overrides, after the aliases and the memory budget. -/
def Arguments.limits (a : Arguments) (qualityThreshold : Option ℚ) : Limits where
  qualityThreshold
  residentBytes := a.residentBudgetBytes <|> a.maxResidentBytes <|> a.memoryBudgetBytes
  peakBytes := a.peakBudgetBytes <|> a.maxPeakBytes <|> a.memoryBudgetBytes
  bytesPerToken := a.bytesPerTokenBudget <|> a.maxBytesPerToken
  kvBytesPerToken := a.kvBytesPerTokenBudget <|> a.maxKvBytesPerToken

/-- The overrides that are not `None` are set in the mapping. -/
def ContextMapping.update (values : ContextMapping) (a : Arguments) (l : Limits) : ContextMapping :=
  { values with
    generation := a.generation <|> values.generation
    hardwareFingerprint := a.hardwareFingerprint.map some <|> values.hardwareFingerprint
    contextFingerprint := a.contextFingerprint.map some <|> values.contextFingerprint
    workloadFingerprint := a.workloadFingerprint.map some <|> values.workloadFingerprint
    residentBudgetBytes := l.residentBytes.map some <|> values.residentBudgetBytes
    peakBudgetBytes := l.peakBytes.map some <|> values.peakBudgetBytes
    bytesPerTokenBudget := l.bytesPerToken.map some <|> values.bytesPerTokenBudget
    kvBytesPerTokenBudget := l.kvBytesPerToken.map some <|> values.kvBytesPerTokenBudget
    qualityThreshold := l.qualityThreshold <|> values.qualityThreshold }

/-- `_context`. -/
def mergedContext (given : GivenContext) (qualityThreshold : Option ℚ) (a : Arguments) :
    Except ParetoFailure PolicyContext :=
  let values := given.values.update a (a.limits qualityThreshold)
  if values.generation = none then .error (.rejected "generation_required") else PolicyContext.fromMapping values

/-! ## The entry points -/

/-- `ParetoPolicy(profile, own).decide(candidates, given, quality_threshold=…, **arguments)`. -/
def decideWith (round : ℚ → ℚ) (profile : Profile) (own : ℚ) (candidates : List RepresentationCandidate)
    (given : GivenContext) (qualityThreshold : Option ℚ) (arguments : Arguments) :
    Except ParetoFailure ParetoDecision := do
  let _ ← checkThreshold (some own)
  let context ← mergedContext given qualityThreshold arguments
  ParetoPolicy.decide round profile own candidates context

/-- `select_representation`; its threshold is 0 where the caller gives none. -/
def selectRepresentation (round : ℚ → ℚ) (candidates : List RepresentationCandidate) (profile : Profile)
    (qualityThreshold : Option ℚ) (given : GivenContext) (arguments : Arguments) :
    Except ParetoFailure ParetoDecision :=
  decideWith round profile (qualityThreshold.getD 0) candidates given (some (qualityThreshold.getD 0)) arguments

/-- An entry point with the threshold that its caller gives, if any. -/
inductive EntryPoint
  | decide (own : ℚ) (qualityThreshold : Option ℚ)
  | selectRepresentation (qualityThreshold : Option ℚ)

def EntryPoint.qualityThreshold : EntryPoint → Option ℚ
  | decide _ t => t
  | selectRepresentation t => t

/-- A call, but for the candidates. -/
structure Call where
  round : ℚ → ℚ
  profile : Profile
  entry : EntryPoint
  given : GivenContext
  arguments : Arguments

variable (call : Call)

def Call.run (candidates : List RepresentationCandidate) : Except ParetoFailure ParetoDecision :=
  match call.entry with
  | .decide own t => decideWith call.round call.profile own candidates call.given t call.arguments
  | .selectRepresentation t => Pareto.selectRepresentation call.round candidates call.profile t call.given call.arguments

/-- The limits of the context, and those that the caller has given in their place. -/
def Call.limits : Limits := (call.arguments.limits call.entry.qualityThreshold).or call.given.values.limits

/-- Whatever the candidates, the one that is selected meets the limits. -/
def Call.Respects : Prop :=
  ∀ candidates decision c, call.run candidates = .ok decision → decision.selected = some c → Meets call.limits c

/-- `select_representation` has been given a threshold, or the one of the context is not above 0, or the call raises for
its context and arguments. -/
def Call.Kept : Prop :=
  call.entry = .selectRepresentation none → (∀ t ∈ call.given.values.qualityThreshold, t ≤ 0) ∨
    ∃ e, mergedContext call.given (some 0) call.arguments = .error e

/-! ## The context that is merged -/

variable {round : ℚ → ℚ} {profile : Profile} {threshold : ℚ} {context : PolicyContext} {value : ContextMapping}
  {given : GivenContext} {arguments : Arguments} {qualityThreshold : Option ℚ} {l : Limits}
  {candidates : List RepresentationCandidate} {decision : ParetoDecision} {c : RepresentationCandidate}

theorem checkInteger_eq_ok {b : Option ℤ} {n : Option ℕ} (h : checkInteger b = .ok n) : n.map (↑) = b := by
  unfold checkInteger at h
  split_ifs at h with negative
  cases h
  cases b with
  | none => rfl
  | some b =>
    have : ¬ b < 0 := by simpa using negative
    exact congrArg some (Int.toNat_of_nonneg (by omega))

theorem checkNumber_eq_ok_iff {reason : PyStr} {b q : Option ℚ} :
    checkNumber reason b = .ok q ↔ q = b ∧ ∀ x ∈ b, 0 ≤ x := by
  unfold checkNumber
  cases b with
  | none => simp [eq_comm]
  | some b =>
    by_cases negative : b < 0
    · simp [negative, not_le.2 negative]
    · simp [negative, not_lt.1 negative, eq_comm]

theorem checkThreshold_eq_ok {b q : Option ℚ} (h : checkThreshold b = .ok q) : q = b := by
  obtain ⟨t, checked, rest⟩ := bind_ok.1 h
  split_ifs at rest
  cases rest
  exact (checkNumber_eq_ok_iff.1 checked).1

/-- The context has the limits of the mapping, and its budgets are not negative. -/
theorem limits_of_fromMapping (h : PolicyContext.fromMapping value = .ok context) :
    context.limits = value.limits ∧ (∀ b ∈ context.bytesPerTokenBudget, 0 ≤ b) ∧
      ∀ b ∈ context.kvBytesPerTokenBudget, 0 ≤ b := by
  obtain ⟨_, -, h⟩ := bind_ok.1 h
  obtain ⟨_, -, h⟩ := bind_ok.1 h
  obtain ⟨_, -, h⟩ := bind_ok.1 h
  obtain ⟨_, -, h⟩ := bind_ok.1 h
  obtain ⟨resident, residentOk, h⟩ := bind_ok.1 h
  obtain ⟨peak, peakOk, h⟩ := bind_ok.1 h
  obtain ⟨bytes, bytesOk, h⟩ := bind_ok.1 h
  obtain ⟨kv, kvOk, h⟩ := bind_ok.1 h
  obtain ⟨quality, qualityOk, h⟩ := bind_ok.1 h
  cases h
  obtain ⟨rfl, bytesPositive⟩ := checkNumber_eq_ok_iff.1 bytesOk
  obtain ⟨rfl, kvPositive⟩ := checkNumber_eq_ok_iff.1 kvOk
  obtain rfl := checkThreshold_eq_ok qualityOk
  refine ⟨?_, bytesPositive, kvPositive⟩
  unfold PolicyContext.limits
  rw [checkInteger_eq_ok residentOk, checkInteger_eq_ok peakOk]

theorem getD_map_orElse {α : Type} (a d : Option α) (e : Entry α) : (a.map some <|> e).getD d = (a <|> e.getD d) := by
  cases a <;> rfl

theorem limits_update : (value.update arguments l).limits = l.or value.limits := by
  unfold ContextMapping.update ContextMapping.limits Limits.or
  simp only [getD_map_orElse]

theorem mergedContext_eq_ok (h : mergedContext given qualityThreshold arguments = .ok context) :
    context.limits = (arguments.limits qualityThreshold).or given.values.limits ∧
      (∀ b ∈ context.bytesPerTokenBudget, 0 ≤ b) ∧ ∀ b ∈ context.kvBytesPerTokenBudget, 0 ≤ b := by
  unfold mergedContext at h
  dsimp only at h
  split_ifs at h
  rw [← limits_update]
  exact limits_of_fromMapping h

/-! ## What is selected -/

theorem within_cast {value budget : Option ℕ} :
    Within (value.map (Nat.cast : ℕ → ℚ)) (budget.map Nat.cast) ↔
      Within (value.map (Nat.cast : ℕ → ℤ)) (budget.map Nat.cast) := by
  cases budget <;> cases value <;> simp [Within]

theorem all_budgetTurn {state : Filters} {label : PyStr} {value budget : Option ℚ} :
    (budgetTurn state (label, value, budget)).1.all Prod.snd = true ↔
      state.1.all Prod.snd = true ∧ Within value budget := by
  unfold budgetTurn
  cases budget <;> cases value <;> simp [Within]

theorem all_fingerprintTurn {state : Filters} {label expected : PyStr} {value : Option PyStr} :
    (fingerprintTurn state (label, value, expected)).1.all Prod.snd = true ↔
      state.1.all Prod.snd = true ∧ (value = none ∨ expected = "unknown" ∨ value = some expected) := by
  unfold fingerprintTurn
  rw [List.all_append, Bool.and_eq_true]
  refine and_congr_right' ?_
  simp only [List.all_cons, List.all_nil, Bool.and_true, Bool.or_eq_true, Option.isNone_iff_eq_none,
    decide_eq_true_eq, or_assoc]

/-- A candidate is eligible when it has the quality and is available, and meets the budgets and the fingerprints. -/
theorem isEligible_iff : isEligible context threshold c = true ↔
    ((((((((threshold ≤ c.quality ∧ c.available = true) ∧
      Within (c.residentBytes.map (↑)) context.limits.residentBytes) ∧
      Within (c.peakBytes.map (↑)) context.limits.peakBytes) ∧
      Within c.bytesPerToken context.bytesPerTokenBudget) ∧
      Within c.kvBytesPerToken context.kvBytesPerTokenBudget) ∧
      (c.hardwareFingerprint = none ∨ context.hardwareFingerprint = "unknown" ∨
        c.hardwareFingerprint = some context.hardwareFingerprint)) ∧
      (c.contextFingerprint = none ∨ context.contextFingerprint = "unknown" ∨
        c.contextFingerprint = some context.contextFingerprint)) ∧
      (c.workloadFingerprint = none ∨ context.workloadFingerprint = "unknown" ∨
        c.workloadFingerprint = some context.workloadFingerprint)) := by
  unfold isEligible hardFilters PolicyContext.limits
  simp only [List.foldl, all_budgetTurn, all_fingerprintTurn, within_cast, List.all_cons, List.all_nil, Bool.and_true,
    Bool.and_eq_true, decide_eq_true_eq]

theorem isEligible_of_selected (h : ParetoPolicy.decide round profile threshold candidates context = .ok decision)
    (selected : decision.selected = some c) :
    isEligible context (context.qualityThreshold.getD threshold) c = true := by
  unfold ParetoPolicy.decide at h
  dsimp only at h
  split_ifs at h
  · obtain ⟨benefits, -, h⟩ := bind_ok.1 h
    cases h
    have front := List.argmin_mem (Option.mem_def.2 selected)
    unfold frontier at front
    rw [List.mem_insertionSort] at front
    exact (List.mem_filter.1 (List.mem_filter.1 front).1).2
  · cases h

theorem meets_of_decideWith (own : ℚ)
    (h : decideWith round profile own candidates given qualityThreshold arguments = .ok decision)
    (selected : decision.selected = some c) :
    Meets ((arguments.limits qualityThreshold).or given.values.limits) c := by
  obtain ⟨_, -, h⟩ := bind_ok.1 h
  obtain ⟨context, merged, h⟩ := bind_ok.1 h
  rw [← (mergedContext_eq_ok merged).1]
  obtain ⟨⟨⟨⟨⟨⟨⟨⟨quality, -⟩, resident⟩, peak⟩, bytes⟩, kv⟩, -⟩, -⟩, -⟩ :=
    isEligible_iff.1 (isEligible_of_selected h selected)
  refine ⟨fun t mem => ?_, resident, peak, bytes, kv⟩
  rwa [show context.qualityThreshold = some t from mem] at quality

/-! ## When a call respects its limits -/

/-- The candidate of no quality that uses nothing. -/
def idle : RepresentationCandidate where
  name := "idle"
  representation := .mixed
  quality := 0
  residentBytes := some 0
  peakBytes := some 0
  bytesPerToken := some 0
  kvBytesPerToken := some 0

theorem eligibleOf_idle (bytes : ∀ b ∈ context.bytesPerTokenBudget, 0 ≤ b)
    (kv : ∀ b ∈ context.kvBytesPerTokenBudget, 0 ≤ b) (zero : context.qualityThreshold = some 0) :
    eligibleOf [idle] context 0 = [idle] := by
  have natural (budget : Option ℕ) : Within (some (0 : ℤ)) (budget.map (↑)) := by
    intro b mem
    obtain ⟨n, -, rfl⟩ := Option.map_eq_some_iff.1 mem
    exact ⟨0, rfl, Int.natCast_nonneg n⟩
  have eligible : isEligible context 0 idle = true :=
    isEligible_iff.2 ⟨⟨⟨⟨⟨⟨⟨⟨le_refl _, rfl⟩, natural _⟩, natural _⟩, fun b mem => ⟨0, rfl, bytes b mem⟩⟩,
      fun b mem => ⟨0, rfl, kv b mem⟩⟩, .inl rfl⟩, .inl rfl⟩, .inl rfl⟩
  unfold eligibleOf
  rw [zero, Option.getD_some, List.filter_singleton, eligible, cond_true]

theorem fits_idle : Fits profile idle := by
  intro w _ n value
  have zero : n = 0 := by
    cases metric : w.1 <;> rw [metric] at value <;> cases value
    · rfl
    · rfl
  rw [zero]
  decide +kernel

theorem exists_select_idle (merged : mergedContext given (some 0) arguments = .ok context) :
    ∃ decision, selectRepresentation round [idle] profile none given arguments = .ok decision ∧
      decision.selected = some idle := by
  obtain ⟨limits, bytes, kv⟩ := mergedContext_eq_ok merged
  have zero : context.qualityThreshold = some 0 := congrArg Limits.qualityThreshold limits
  have only := eligibleOf_idle bytes kv zero
  have distinct : ([idle].map RepresentationCandidate.name).Nodup := List.nodup_singleton _
  obtain ⟨decision, returned, c, mem, selected, -⟩ :
    Selects [idle] context 0 (ParetoPolicy.decide round profile 0 [idle] context) := by
    refine (selects_iff_frontier distinct).2 ?_
    rw [only]
    refine ⟨⟨idle, List.mem_singleton_self _, fun d mem => ?_⟩, fun c mem _ => ?_⟩
    · rw [List.mem_singleton.1 mem]
      exact dominates_self idle
    · rw [List.mem_singleton.1 mem]
      exact fits_idle
  rw [only] at mem
  rw [List.mem_singleton.1 mem] at selected
  refine ⟨decision, ?_, selected⟩
  exact bind_ok.2 ⟨some 0, by decide, bind_ok.2 ⟨context, merged, returned⟩⟩

/-- A call respects its limits for all candidates exactly when it is not one of `select_representation` without a
threshold that replaces one of the context. -/
theorem respects_iff : call.Respects ↔ call.Kept := by
  obtain ⟨round, profile, entry, given, arguments⟩ := call
  constructor
  · intro respects default
    cases default
    cases merged : mergedContext given (some 0) arguments with
    | error e => exact .inr ⟨e, rfl⟩
    | ok context =>
      obtain ⟨decision, returned, selected⟩ := exists_select_idle merged
      exact .inl fun t mem => (respects [idle] decision idle returned selected).quality t mem
  · intro kept candidates decision c returned selected
    cases entry with
    | decide own t => exact meets_of_decideWith own returned selected
    | selectRepresentation t =>
      have meets := meets_of_decideWith _ returned selected
      cases t with
      | some t => exact meets
      | none =>
        obtain ⟨_, -, rest⟩ := bind_ok.1 returned
        obtain ⟨context, merged, -⟩ := bind_ok.1 rest
        rcases kept rfl with low | ⟨e, refused⟩
        · exact { meets with quality := fun t mem => (low t mem).trans (meets.quality 0 rfl) }
        · cases merged.symm.trans refused

/-- The context asks for a quality of 9/10. -/
def strictCall : Call where
  round := id
  profile := .balanced
  entry := .selectRepresentation none
  given := .context "generation" { qualityThreshold := some (9 / 10) }
  arguments := {}

/-- A candidate of the quality 1/2 is selected. -/
theorem not_respects_strictCall : ¬ ∀ call : Call, call.Respects := by
  intro all
  let half : RepresentationCandidate := { name := "half", representation := .sqtn, quality := 1 / 2 }
  have chosen : (strictCall.run [half]).toOption.map ParetoDecision.selected = some (some half) := by decide +kernel
  cases run : strictCall.run [half] with
  | error e =>
    rw [run] at chosen
    cases chosen
  | ok decision =>
    rw [run] at chosen
    have meets := all strictCall [half] decision half run (Option.some.inj chosen)
    exact absurd (meets.quality (9 / 10) rfl) (by decide +kernel)

end Pareto

end SimplicioFast
