import SimplicioFast.Lib.Machine
import SimplicioFast.Ranking.Basic

/-!
# The frontier of a ranking

An entry is on the frontier exactly when it comes from an eligible candidate whose estimates are minimal: no eligible
candidate with both estimates is below it in the product order (`mem_paretoFrontier_iff`).
-/

namespace SimplicioFast

namespace Ranking

variable {required : List PyStr} {request : RankRequest} {candidates : List CapabilityCandidate}
  {c d : CapabilityCandidate} {facts items : List Fact} {f g : Fact} {e : FrontierEntry} {catalog : Catalog}

/-! ## Facts -/

theorem splitRequiredCapabilities_eq (l available : List PyStr) :
    splitRequiredCapabilities l available = (l.filter (· ∈ available), l.filter (· ∉ available)) := by
  unfold splitRequiredCapabilities
  suffices general : ∀ start : List PyStr × List PyStr, l.foldl (fun split capability =>
      if capability ∈ available then (split.1 ++ [capability], split.2)
      else (split.1, split.2 ++ [capability])) start =
      (start.1 ++ l.filter (· ∈ available), start.2 ++ l.filter (· ∉ available)) from general ([], [])
  induction l with
  | nil => intro start; simp
  | cons s l ih =>
    intro start
    rw [List.foldl_cons, ih]
    by_cases mem : s ∈ available
    · simp [mem]
    · simp [mem]

theorem collectFacts_eq (collected : collectFacts required request candidates = .ok facts) :
    facts = candidates.map (factOf required request) := by
  unfold collectFacts at collected
  suffices general : ∀ start : List Fact, candidates.foldlM (fun facts c =>
      if MAX_CANDIDATES ≤ facts.length then Except.error ("candidate_count_limit" : PyStr)
      else .ok (facts ++ [factOf required request c])) start = .ok facts →
      facts = start ++ candidates.map (factOf required request) from general [] collected
  clear collected
  induction candidates with
  | nil =>
    intro start returned
    cases returned
    exact (List.append_nil _).symm
  | cons c candidates ih =>
    intro start returned
    rw [List.foldlM_cons] at returned
    obtain ⟨next, turn, rest⟩ := bind_ok.1 returned
    split_ifs at turn
    cases turn
    rw [ih _ rest, List.map_cons, List.append_assoc, List.singleton_append]

theorem rank_eq_ok (ranked : rank candidates required request = .ok catalog) :
    let facts := (candidates.map (factOf (PyStr.sortedSet required) request)).insertionSort fun a b => a.key ≤ b.key
    catalog =
      { requiredCapabilities := PyStr.sortedSet required
        requiredScope := request.requiredScope
        requiredTrust := request.requiredTrust
        maxFreshnessSeconds := request.maxFreshnessSeconds
        candidates := facts.take request.maxResults.toNat
        paretoFrontier := (undominated (measured facts)).insertionSort fun a b => a.key ≤ b.key
        truncated := request.maxResults < facts.length } := by
  obtain ⟨_, -, ranked⟩ := bind_ok.1 ranked
  obtain ⟨_, -, ranked⟩ := bind_ok.1 ranked
  obtain ⟨collected, found, ranked⟩ := bind_ok.1 ranked
  cases ranked
  rw [collectFacts_eq found]

/-! ## Domination -/

theorem dominates_self (f : Fact) : dominates f f = false := by
  have strict (a : Option ℤ) : compares (· < ·) a a = false := by
    cases a <;> simp [compares]
  rw [dominates, strict, strict, Bool.or_self, Bool.and_false]

theorem mem_undominated :
    e ∈ undominated items ↔ ∃ f ∈ items, (∀ g ∈ items, dominates g f = false) ∧ f.entry = e := by
  unfold undominated
  rw [List.mem_map]
  constructor
  · rintro ⟨⟨f, i⟩, mem, same⟩
    obtain ⟨inside, free⟩ := List.mem_filter.1 mem
    rw [Bool.not_eq_true', List.any_eq_false] at free
    refine ⟨f, List.fst_mem_of_mem_zipIdx inside, fun g other => ?_, same⟩
    obtain ⟨j, small, rfl⟩ := List.getElem_of_mem other
    have placed := List.mk_mem_zipIdx_iff_getElem?.2 (List.getElem?_eq_getElem small)
    by_cases here : j = i
    · subst here
      rw [List.mk_mem_zipIdx_iff_getElem?, List.getElem?_eq_getElem small, Option.some.injEq] at inside
      rw [inside]
      exact dominates_self f
    · simpa [here] using free _ placed
  · rintro ⟨f, mem, free, same⟩
    obtain ⟨i, small, rfl⟩ := List.getElem_of_mem mem
    refine ⟨(items[i], i), List.mem_filter.2 ⟨?_, ?_⟩, same⟩
    · exact List.mk_mem_zipIdx_iff_getElem?.2 (List.getElem?_eq_getElem small)
    · rw [Bool.not_eq_true', List.any_eq_false]
      intro other inside
      rw [free other.1 (List.fst_mem_of_mem_zipIdx inside), Bool.and_false]
      exact Bool.false_ne_true

/-! ## The candidates of the frontier -/

/-- A candidate passes every hard filter. -/
structure Eligible (required : List PyStr) (request : RankRequest) (c : CapabilityCandidate) : Prop where
  capabilities : ∀ s ∈ required, s ∈ c.capabilities
  available : c.available = true
  policy : c.policyEligible = some true
  scope : ∀ s ∈ request.requiredScope, c.scope = "*" ∨ c.scope = s
  trust : ∀ t ∈ request.requiredTrust, trustRank t ≤ trustRank c.trust
  freshness : ∀ maximum ∈ request.maxFreshnessSeconds, ∃ n ∈ c.freshnessSeconds, n ≤ maximum

/-- The cost and the latency of a candidate that has both. -/
def estimates (c : CapabilityCandidate) : Option (ℤ × ℤ) :=
  c.estimatedCost.bind fun cost => c.estimatedLatencyMs.map fun latency => (cost, latency)

/-- An eligible candidate with both estimates that no other such candidate dominates. -/
def Undominated (required : List PyStr) (request : RankRequest) (candidates : List CapabilityCandidate)
    (c : CapabilityCandidate) : Prop :=
  Eligible required request c ∧ ∃ estimate, estimates c = some estimate ∧
    ∀ d ∈ candidates, Eligible required request d → ∀ other ∈ estimates d, ¬ other < estimate

def entryOf (c : CapabilityCandidate) : FrontierEntry where
  handle := c.handle
  version := c.version
  estimatedCost := c.estimatedCost
  estimatedLatencyMs := c.estimatedLatencyMs
  metricClass := c.metricClass

theorem policyName_eq_eligible_iff {eligible : Option Bool} :
    policyName eligible = "eligible" ↔ eligible = some true := by
  rcases eligible with _ | _ | _ <;> decide

theorem eligible_factOf : (factOf (PyStr.sortedSet required) request c).eligible = true ↔ Eligible required request c := by
  unfold factOf HardFilter.passes hardFilter
  rw [splitRequiredCapabilities_eq]
  dsimp only
  simp only [Bool.and_eq_true, List.isEmpty_iff, List.filter_eq_nil_iff, decide_eq_true_eq, not_not,
    PyStr.mem_sortedSet, policyName_eq_eligible_iff, Option.all_eq_true, Option.any_eq_true, Bool.or_eq_true]
  constructor
  · rintro ⟨⟨⟨⟨⟨capabilities, available⟩, policy⟩, scope⟩, trust⟩, freshness⟩
    exact ⟨capabilities, available, policy, scope, trust, freshness⟩
  · intro h
    exact ⟨⟨⟨⟨⟨h.capabilities, h.available⟩, h.policy⟩, h.scope⟩, h.trust⟩, h.freshness⟩

theorem estimates_eq_some_iff {x : ℤ × ℤ} :
    estimates c = some x ↔ c.estimatedCost = some x.1 ∧ c.estimatedLatencyMs = some x.2 := by
  obtain ⟨cost, latency⟩ := x
  unfold estimates
  cases c.estimatedCost <;> cases c.estimatedLatencyMs <;> simp

theorem dominates_factOf_iff {x y : ℤ × ℤ} (hd : estimates d = some x) (hc : estimates c = some y) :
    dominates (factOf required request d) (factOf required request c) = true ↔ x < y := by
  obtain ⟨cost, latency⟩ := estimates_eq_some_iff.1 hd
  obtain ⟨cost', latency'⟩ := estimates_eq_some_iff.1 hc
  show dominates { factOf required request d with estimatedCost := d.estimatedCost
                                                  estimatedLatencyMs := d.estimatedLatencyMs }
    { factOf required request c with estimatedCost := c.estimatedCost
                                     estimatedLatencyMs := c.estimatedLatencyMs } = true ↔ x < y
  rw [cost, latency, cost', latency', Prod.lt_iff]
  simp only [dominates, compares, Option.any_some, Bool.and_eq_true, Bool.or_eq_true, decide_eq_true_eq]
  omega

theorem mem_measured_iff
    (same : ∀ g, g ∈ facts ↔ g ∈ candidates.map (factOf (PyStr.sortedSet required) request)) :
    f ∈ measured facts ↔ ∃ c ∈ candidates, Eligible required request c ∧ (∃ x, estimates c = some x) ∧
      factOf (PyStr.sortedSet required) request c = f := by
  have both (c : CapabilityCandidate) : (c.estimatedCost.isSome = true ∧ c.estimatedLatencyMs.isSome = true) ↔
      ∃ x, estimates c = some x := by
    unfold estimates
    cases c.estimatedCost <;> cases c.estimatedLatencyMs <;> simp
  unfold measured
  rw [List.mem_filter, same, List.mem_map, Bool.and_eq_true, Bool.and_eq_true, and_assoc]
  constructor
  · rintro ⟨⟨c, mem, rfl⟩, eligible, estimated⟩
    exact ⟨c, mem, eligible_factOf.1 eligible, (both c).1 estimated, rfl⟩
  · rintro ⟨c, mem, eligible, estimated, rfl⟩
    exact ⟨⟨c, mem, rfl⟩, eligible_factOf.2 eligible, (both c).2 estimated⟩

theorem mem_frontier_iff (ranked : rank candidates required request = .ok catalog) :
    e ∈ catalog.paretoFrontier ↔ ∃ c ∈ candidates, Undominated required request candidates c ∧ entryOf c = e := by
  have same (g : Fact) : g ∈ (candidates.map (factOf (PyStr.sortedSet required) request)).insertionSort
      (fun a b => a.key ≤ b.key) ↔ g ∈ candidates.map (factOf (PyStr.sortedSet required) request) :=
    List.mem_insertionSort _
  rw [rank_eq_ok ranked]
  dsimp only
  rw [List.mem_insertionSort, mem_undominated]
  constructor
  · rintro ⟨f, inside, free, rfl⟩
    obtain ⟨c, mem, eligible, ⟨x, estimated⟩, rfl⟩ := (mem_measured_iff same).1 inside
    refine ⟨c, mem, ⟨eligible, x, estimated, fun d other admitted y there less => ?_⟩, rfl⟩
    have absent := free _ ((mem_measured_iff same).2 ⟨d, other, admitted, ⟨y, there⟩, rfl⟩)
    rw [(dominates_factOf_iff there estimated).2 less] at absent
    cases absent
  · rintro ⟨c, mem, ⟨eligible, x, estimated, minimal⟩, rfl⟩
    refine ⟨_, (mem_measured_iff same).2 ⟨c, mem, eligible, ⟨x, estimated⟩, rfl⟩, fun g inside => ?_, rfl⟩
    obtain ⟨d, other, admitted, ⟨y, there⟩, rfl⟩ := (mem_measured_iff same).1 inside
    rw [Bool.eq_false_iff, ne_eq, dominates_factOf_iff there estimated]
    exact minimal d other admitted y there

end Ranking

end SimplicioFast
