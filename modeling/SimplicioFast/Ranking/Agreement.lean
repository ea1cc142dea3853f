import SimplicioFast.Ranking.Frontier
import SimplicioFast.Ranking.Rust

/-!
# The two rankings agree

On the arguments that both accept, the Rust core builds the catalog of `capability_ranking.py` in both profiles exactly
when the running score of every candidate stays in 64 bits (`Fits`): the cost and the latency have no upper bound.
-/

namespace SimplicioFast

namespace Ranking

variable {required : List PyStr} {request : RankRequest} {candidates : List CapabilityCandidate}
  {c : CapabilityCandidate} {a b : PyStr}

/-! ## What the score needs -/

/-- The number of required capabilities that a candidate has. -/
def held (required : List PyStr) (c : CapabilityCandidate) : ℕ := (required.dedup.filter (· ∈ c.capabilities)).length

/-- The number of required capabilities that a candidate lacks. -/
def lacking (required : List PyStr) (c : CapabilityCandidate) : ℕ :=
  (required.dedup.filter (· ∉ c.capabilities)).length

def penalty (request : RankRequest) (c : CapabilityCandidate) : ℤ :=
  let filter := hardFilter request [] c
  (if c.available then 0 else 10000) +
    (match c.policyEligible with
      | some true => 0
      | some false => 10000
      | none => 5000) +
    (if filter.scope then 0 else 10000) + (if filter.trust then 0 else 10000) +
    (if filter.freshness then 0 else 10000)

/-- The running score of a candidate stays in 64 bits. -/
structure Fits (required : List PyStr) (request : RankRequest) (c : CapabilityCandidate) : Prop where
  matched : 100 * held required c < 2 ^ 63
  missing : 1000 * lacking required c ≤ 2 ^ 63
  score : -2 ^ 63 ≤ 100 * (held required c : ℤ) - 1000 * lacking required c - c.estimatedCost.getD 0 -
    c.estimatedLatencyMs.getD 0 - penalty request c

theorem length_filter_sortedSet (p : PyStr → Bool) :
    ((PyStr.sortedSet required).filter p).length = (required.dedup.filter p).length :=
  ((List.perm_insertionSort _ _).filter p).length_eq

/-- What is added to the score of the matched capabilities. -/
def ScoreComponents.terms (s : ScoreComponents) : List ℤ :=
  [s.missingCapabilities, s.cost.getD 0, s.latency.getD 0, s.availability, s.policy, s.scope, s.trust, s.freshness]

theorem ScoreComponents.score_eq (s : ScoreComponents) : s.score = s.matchedCapabilities + s.terms.sum := by
  unfold ScoreComponents.score ScoreComponents.values ScoreComponents.terms
  cases s.cost <;> cases s.latency <;>
    simp only [List.filterMap_cons, List.filterMap_nil, id_eq, List.sum_cons, List.sum_nil, Option.getD_none,
      Option.getD_some, zero_add]

theorem policyScore_eq (eligible : Option Bool) :
    (if policyName eligible = "eligible" then (0 : ℤ)
      else if policyName eligible = "rejected" then -10000 else -5000) =
    -(match eligible with
      | some true => 0
      | some false => 10000
      | none => 5000) := by
  rcases eligible with _ | _ | _ <;> decide

theorem getD_map_neg (value : Option ℤ) : (value.map (-·)).getD 0 = -value.getD 0 := by
  cases value <;> rfl

theorem neg_ite (p : Bool) (n : ℤ) : (if p then 0 else -n) = -(if p then 0 else n) := by
  cases p <;> simp

theorem scoreComponents_factOf :
    (factOf (PyStr.sortedSet required) request c).scoreComponents.matchedCapabilities = 100 * held required c ∧
      (factOf (PyStr.sortedSet required) request c).scoreComponents.missingCapabilities =
        -(1000 * lacking required c) := by
  unfold factOf
  rw [splitRequiredCapabilities_eq]
  dsimp only
  unfold scoreComponents held lacking
  dsimp only
  rw [length_filter_sortedSet, length_filter_sortedSet]
  constructor <;> ring

theorem terms_nonpos (cost : isNegative c.estimatedCost = false) (latency : isNegative c.estimatedLatencyMs = false) :
    ∀ v ∈ (factOf required request c).scoreComponents.terms, v ≤ 0 := by
  have estimate (value : Option ℤ) (nonneg : isNegative value = false) : (value.map (-·)).getD 0 ≤ 0 := by
    cases value with
    | none => exact le_refl 0
    | some n =>
      have pos : ¬ n < 0 := by simpa [isNegative] using nonneg
      show -n ≤ 0
      omega
  have term (p : Bool) : (if p then (0 : ℤ) else -10000) ≤ 0 := by
    cases p <;> decide
  unfold factOf
  rw [splitRequiredCapabilities_eq]
  dsimp only
  unfold scoreComponents ScoreComponents.terms
  dsimp only
  simp only [List.forall_mem_cons, term, estimate _ cost, estimate _ latency, true_and]
  refine ⟨by omega, ?_, fun _ mem => absurd mem List.not_mem_nil⟩
  rcases c.policyEligible with _ | _ | _ <;> decide

theorem score_factOf : (factOf (PyStr.sortedSet required) request c).score =
    100 * (held required c : ℤ) - 1000 * lacking required c - c.estimatedCost.getD 0 -
      c.estimatedLatencyMs.getD 0 - penalty request c := by
  unfold factOf
  rw [splitRequiredCapabilities_eq]
  dsimp only
  rw [ScoreComponents.score_eq, ScoreComponents.terms]
  unfold scoreComponents penalty held lacking
  dsimp only
  rw [length_filter_sortedSet, length_filter_sortedSet, getD_map_neg, getD_map_neg, policyScore_eq, neg_ite, neg_ite,
    neg_ite, neg_ite]
  simp only [List.sum_cons, List.sum_nil]
  unfold hardFilter
  dsimp only
  ring

theorem sum_terms : 100 * held required c + (factOf (PyStr.sortedSet required) request c).scoreComponents.terms.sum =
    100 * (held required c : ℤ) - 1000 * lacking required c - c.estimatedCost.getD 0 -
      c.estimatedLatencyMs.getD 0 - penalty request c := by
  rw [← score_factOf, ← scoreComponents_factOf.1]
  exact (ScoreComponents.score_eq _).symm

namespace Rust

variable {profile : Profile} {m n s t : ℤ} {l : List ℤ}

/-! ## Arithmetic -/

theorem arith_of_isI64 (small : IsI64 n) : arith profile n = .ok n := if_pos small

theorem arith_debug_eq_ok_iff : arith .debug n = .ok m ↔ IsI64 n ∧ n = m := by
  unfold arith
  by_cases small : IsI64 n
  · rw [if_pos small, Except.ok.injEq]
    exact (and_iff_right small).symm
  · rw [if_neg small]
    exact iff_of_false nofun fun h => small h.1

theorem asI64_of_lt {k : ℕ} (small : k < 2 ^ 63) : asI64 k = k := by
  unfold asI64
  rw [Int.bmod_def]
  omega

theorem sum_nonpos (falling : ∀ v ∈ l, v ≤ 0) : l.sum ≤ 0 := by
  induction l with
  | nil => rfl
  | cons v l ih =>
    obtain ⟨first, rest⟩ := List.forall_mem_cons.1 falling
    have below := ih rest
    rw [List.sum_cons]
    omega

theorem addAll_of_le (start : IsI64 s) (falling : ∀ v ∈ l, v ≤ 0) (last : -2 ^ 63 ≤ s + l.sum) :
    addAll profile s l = .ok (s + l.sum) := by
  unfold addAll
  induction l generalizing s with
  | nil =>
    rw [List.sum_nil, add_zero]
    rfl
  | cons v l ih =>
    obtain ⟨first, rest⟩ := List.forall_mem_cons.1 falling
    have below := sum_nonpos rest
    rw [List.sum_cons, ← add_assoc] at last ⊢
    have small : IsI64 (s + v) := ⟨by omega, by have := start.2; omega⟩
    rw [List.foldlM_cons, arith_of_isI64 small]
    exact ih small rest last

theorem le_of_addAll (start : IsI64 s) (added : addAll .debug s l = .ok t) : -2 ^ 63 ≤ s + l.sum := by
  unfold addAll at added
  induction l generalizing s with
  | nil =>
    rw [List.sum_nil, add_zero]
    exact start.1
  | cons v l ih =>
    rw [List.foldlM_cons] at added
    obtain ⟨next, turn, rest⟩ := bind_ok.1 added
    obtain ⟨small, rfl⟩ := arith_debug_eq_ok_iff.1 turn
    rw [List.sum_cons, ← add_assoc]
    exact ih small rest

theorem negate_eq {value : Option ℤ} (typed : ∀ n ∈ value, IsI64 n) (nonneg : isNegative value = false) :
    negate profile value = .ok (value.map (-·)) := by
  cases value with
  | none => rfl
  | some n =>
    have small := typed n rfl
    have pos : ¬ n < 0 := by simpa [isNegative] using nonneg
    have opposite : IsI64 (-n) := ⟨by have := small.2; omega, by omega⟩
    rw [negate, arith_of_isI64 opposite]
    rfl

/-! ## Strings -/

theorem exists_ofChars (string : IsString a) : ∃ l, a = PyStr.ofChars l := by
  obtain ⟨l, chars⟩ := Option.isSome_iff_exists.1 string
  exact ⟨l, (PyStr.chars?_eq_some_iff a l).1 chars⟩

theorem asBytes_lt_iff (ha : IsString a) (hb : IsString b) : asBytes a < asBytes b ↔ a < b := by
  obtain ⟨l, rfl⟩ := exists_ofChars ha
  obtain ⟨m, rfl⟩ := exists_ofChars hb
  rw [asBytes, asBytes, PyStr.encode_ofChars, PyStr.encode_ofChars, PyStr.ofChars_lt_iff]
  exact PyStr.utf8_lt_iff

theorem asBytes_inj (ha : IsString a) (hb : IsString b) : asBytes a = asBytes b ↔ a = b := by
  obtain ⟨l, rfl⟩ := exists_ofChars ha
  obtain ⟨m, rfl⟩ := exists_ofChars hb
  refine ⟨fun same => ?_, congrArg asBytes⟩
  rw [asBytes, asBytes, PyStr.encode_ofChars, PyStr.encode_ofChars] at same
  refine PyStr.encode_injective (PyStr.encode_ofChars l) ?_
  rw [PyStr.encode_ofChars]
  exact congrArg some same.symm

theorem compareStr_eq_lt_iff (ha : IsString a) (hb : IsString b) : compareStr a b = .lt ↔ a < b := by
  rw [← asBytes_lt_iff ha hb, compareStr, compareOfLessAndEq]
  split_ifs with less <;> simp [less]

theorem compareStr_eq_eq_iff (ha : IsString a) (hb : IsString b) : compareStr a b = .eq ↔ a = b := by
  rw [← asBytes_inj ha hb, compareStr, compareOfLessAndEq]
  split_ifs with less same
  · exact iff_of_false nofun fun same => List.lt_irrefl _ (same ▸ less)
  · exact iff_of_true rfl same
  · exact iff_of_false nofun same

theorem compareStr_isLE_iff (ha : IsString a) (hb : IsString b) : (compareStr a b).isLE = true ↔ a ≤ b := by
  rw [le_iff_lt_or_eq, ← compareStr_eq_lt_iff ha hb, ← compareStr_eq_eq_iff ha hb]
  cases compareStr a b <;> simp [Ordering.isLE]

/-! ## The facts -/

theorem trustRank_eq (trust : PyStr) : (trustRank trust).getD (-1) = Ranking.trustRank trust := by
  have general : ∀ levels : List (PyStr × ℤ),
      (levels.findSome? fun level => if level.1 = trust then some level.2 else none) = levels.lookup trust := by
    intro levels
    induction levels with
    | nil => rfl
    | cons level levels ih =>
      rw [List.findSome?_cons, List.lookup_cons, ih]
      by_cases same : level.1 = trust
      · rw [if_pos same, same, beq_self_eq_true]
      · rw [if_neg same, beq_false_of_ne (Ne.symm same)]
  unfold trustRank Ranking.trustRank
  rw [general]

theorem policyReason_eq (eligible : Option Bool) (rest : PyStr) :
    (if policyName eligible ≠ "eligible" then
      if policyName eligible = "rejected" then "policy_rejected" else "policy_unknown" else rest : PyStr) =
      if policyName eligible ≠ "eligible" then ("policy_" : PyStr) ++ policyName eligible else rest := by
  rcases eligible with _ | _ | _ <;> rfl

theorem nonneg_of_validate (valid : validate c = .ok ()) :
    isNegative c.estimatedCost = false ∧ isNegative c.estimatedLatencyMs = false := by
  unfold validate at valid
  split_ifs at valid with _ _ _ _ negative
  rw [Bool.or_eq_true, not_or, Bool.not_eq_true, Bool.not_eq_true] at negative
  exact negative

/-! ## Sorting -/

theorem insertionSort_congr {α : Type*} {r r' : α → α → Prop} [DecidableRel r] [DecidableRel r'] {l : List α}
    (same : ∀ x ∈ l, ∀ y ∈ l, r x y ↔ r' x y) : l.insertionSort r = l.insertionSort r' := by
  have mapped := List.map_insertionSort r r' id l same
  rwa [List.map_id, List.map_id] at mapped

theorem bTreeSet_eq (typed : ∀ s ∈ required, IsString s) : bTreeSet required = PyStr.sortedSet required := by
  unfold bTreeSet PyStr.sortedSet
  apply insertionSort_congr
  intro x hx y hy
  exact compareStr_isLE_iff (typed x (List.mem_dedup.1 hx)) (typed y (List.mem_dedup.1 hy))

theorem compareFacts_isLE_iff {f g : Fact} (hf : IsString f.handle ∧ IsString f.version)
    (hg : IsString g.handle ∧ IsString g.version) : (compareFacts f g).isLE = true ↔ f.key ≤ g.key := by
  -- the eligible facts are first
  have first : compare g.eligible f.eligible = .lt ↔
      (if f.eligible then (-1 : ℤ) else 0) < if g.eligible then -1 else 0 := by
    cases f.eligible <;> cases g.eligible <;> decide
  have tie : compare g.eligible f.eligible = .eq ↔
      (if f.eligible then (-1 : ℤ) else 0) = if g.eligible then -1 else 0 := by
    cases f.eligible <;> cases g.eligible <;> decide
  have less : compare g.score f.score = .lt ↔ -f.score < -g.score := by
    rw [compare_lt_iff_lt, neg_lt_neg_iff]
  have same : compare g.score f.score = .eq ↔ -f.score = -g.score := by
    rw [compare_eq_iff_eq, neg_inj, eq_comm]
  unfold compareFacts Fact.key
  rw [Prod.Lex.toLex_le_toLex, Prod.Lex.toLex_le_toLex, Prod.Lex.toLex_le_toLex, Ordering.isLE_then_iff_or,
    Ordering.isLE_then_iff_or, Ordering.isLE_then_iff_or, compareStr_eq_lt_iff hf.1 hg.1,
    compareStr_eq_eq_iff hf.1 hg.1, compareStr_isLE_iff hf.2 hg.2, first, tie, less, same]

theorem compareEntries_isLE_iff {d e : FrontierEntry} (hd : IsString d.handle ∧ IsString d.version)
    (he : IsString e.handle ∧ IsString e.version) : (compareEntries d e).isLE = true ↔ d.key ≤ e.key := by
  unfold compareEntries FrontierEntry.key
  rw [Prod.Lex.toLex_le_toLex, Ordering.isLE_then_iff_or, compareStr_eq_lt_iff hd.1 he.1,
    compareStr_eq_eq_iff hd.1 he.1, compareStr_isLE_iff hd.2 he.2]

/-! ## One candidate -/

section Candidate

variable (typed : CandidateTyped c) (valid : validate c = .ok ()) (short : required.length < 2 ^ 63)
include typed valid short

theorem factOf_eq : Rust.factOf profile (PyStr.sortedSet required) request c = (do
    let fact := Ranking.factOf (PyStr.sortedSet required) request c
    let matchedScore ← arith profile fact.scoreComponents.matchedCapabilities
    let missingScore ← arith profile fact.scoreComponents.missingCapabilities
    let score ← addAll profile matchedScore { fact.scoreComponents with missingCapabilities := missingScore }.terms
    return { fact with
      score := score
      scoreComponents :=
        { fact.scoreComponents with matchedCapabilities := matchedScore, missingCapabilities := missingScore } }) := by
  obtain ⟨costNonneg, latencyNonneg⟩ := nonneg_of_validate valid
  have costScore : negate profile c.estimatedCost = pure (c.estimatedCost.map (-·)) :=
    negate_eq (typed.numbers _ (by simp)) costNonneg
  have latencyScore : negate profile c.estimatedLatencyMs = pure (c.estimatedLatencyMs.map (-·)) :=
    negate_eq (typed.numbers _ (by simp)) latencyNonneg
  have length (p : PyStr → Bool) : asI64 ((PyStr.sortedSet required).filter p).length =
      ((required.dedup.filter p).length : ℤ) := by
    have total := (required.dedup.length_filter_le p).trans (List.dedup_sublist required).length_le
    rw [length_filter_sortedSet]
    exact asI64_of_lt (total.trans_lt short)
  dsimp only
  rw [scoreComponents_factOf.1, scoreComponents_factOf.2]
  unfold Rust.factOf Ranking.factOf
  rw [splitRequiredCapabilities_eq]
  dsimp only
  rw [costScore, latencyScore]
  simp only [pure_bind, length, trustRank_eq]
  have matchedScore : ((required.dedup.filter fun x => decide (x ∈ c.capabilities)).length : ℤ) * 100 =
      100 * held required c := mul_comm _ _
  have missingScore : ((required.dedup.filter fun x => decide (x ∉ c.capabilities)).length : ℤ) * -1000 =
      -(1000 * lacking required c) := by
    rw [mul_neg, mul_comm]
    rfl
  rw [matchedScore, missingScore]
  unfold selectionReason hardFilter scoreComponents ScoreComponents.terms HardFilter.passes
  dsimp only
  rw [policyReason_eq]
  simp only [Option.isNone_iff_eq_none]

theorem factOf_of_fits (fits : Fits required request c) :
    Rust.factOf profile (PyStr.sortedSet required) request c =
      .ok (Ranking.factOf (PyStr.sortedSet required) request c) := by
  obtain ⟨cost, latency⟩ := nonneg_of_validate valid
  have last := fits.score
  rw [← sum_terms, ← scoreComponents_factOf.1] at last
  have matched : IsI64 (Ranking.factOf (PyStr.sortedSet required) request c).scoreComponents.matchedCapabilities := by
    have small := fits.matched
    rw [scoreComponents_factOf.1]
    exact ⟨by omega, by omega⟩
  have missing : IsI64 (Ranking.factOf (PyStr.sortedSet required) request c).scoreComponents.missingCapabilities := by
    have small := fits.missing
    rw [scoreComponents_factOf.2]
    exact ⟨by omega, by omega⟩
  rw [factOf_eq typed valid short]
  dsimp only
  rw [arith_of_isI64 matched, arith_of_isI64 missing]
  show (addAll profile _ _ >>= _) = _
  rw [addAll_of_le matched (terms_nonpos cost latency) last, ← ScoreComponents.score_eq]
  rfl

theorem fits_of_factOf {f : Fact} (made : Rust.factOf .debug (PyStr.sortedSet required) request c = .ok f) :
    Fits required request c := by
  rw [factOf_eq typed valid short] at made
  obtain ⟨matchedScore, first, made⟩ := bind_ok.1 made
  obtain ⟨missingScore, second, made⟩ := bind_ok.1 made
  obtain ⟨score, third, -⟩ := bind_ok.1 made
  obtain ⟨matched, rfl⟩ := arith_debug_eq_ok_iff.1 first
  obtain ⟨missing, rfl⟩ := arith_debug_eq_ok_iff.1 second
  have last := le_of_addAll matched third
  rw [scoreComponents_factOf.1] at matched last
  rw [scoreComponents_factOf.2] at missing
  rw [sum_terms] at last
  exact ⟨by have := matched.2; omega, by have := missing.1; omega, last⟩

end Candidate

/-! ## All candidates -/

theorem collectTurn_eq_ok_iff {set : List PyStr} {facts facts' : List Fact} :
    collectTurn profile set request facts c = .ok facts' ↔ facts.length < MAX_CANDIDATES ∧ validate c = .ok () ∧
      ∃ f, Rust.factOf profile set request c = .ok f ∧ facts ++ [f] = facts' := by
  unfold collectTurn
  by_cases full : MAX_CANDIDATES ≤ facts.length
  · rw [if_pos full]
    exact iff_of_false nofun fun h => absurd h.1 (by omega)
  · rw [if_neg full, bind_ok]
    constructor
    · rintro ⟨_, valid, made⟩
      obtain ⟨f, made, same⟩ := bind_ok.1 made
      exact ⟨by omega, valid, f, made, Except.ok.inj same⟩
    · rintro ⟨-, valid, f, made, rfl⟩
      exact ⟨_, valid, bind_ok.2 ⟨f, made, rfl⟩⟩

theorem collect_of_fits (typed : ∀ c ∈ candidates, CandidateTyped c) (short : required.length < 2 ^ 63)
    (fits : ∀ c ∈ candidates, Fits required request c) {start facts : List Fact}
    (collected : candidates.foldlM (collectTurn .release (PyStr.sortedSet required) request) start = .ok facts) :
    candidates.foldlM (collectTurn profile (PyStr.sortedSet required) request) start =
      .ok (start ++ candidates.map (Ranking.factOf (PyStr.sortedSet required) request)) := by
  induction candidates generalizing start with
  | nil => exact congrArg Except.ok (List.append_nil _).symm
  | cons c candidates ih =>
    obtain ⟨typedFirst, typedRest⟩ := List.forall_mem_cons.1 typed
    obtain ⟨fitsFirst, fitsRest⟩ := List.forall_mem_cons.1 fits
    rw [List.foldlM_cons] at collected ⊢
    obtain ⟨next, turn, rest⟩ := bind_ok.1 collected
    obtain ⟨room, valid, f, made, rfl⟩ := collectTurn_eq_ok_iff.1 turn
    rw [factOf_of_fits typedFirst valid short fitsFirst] at made
    cases made
    have again : collectTurn profile (PyStr.sortedSet required) request start c =
        .ok (start ++ [Ranking.factOf (PyStr.sortedSet required) request c]) :=
      collectTurn_eq_ok_iff.2 ⟨room, valid, _, factOf_of_fits typedFirst valid short fitsFirst, rfl⟩
    rw [again]
    show List.foldlM _ _ _ = _
    rw [ih typedRest fitsRest rest, List.map_cons, List.append_assoc, List.singleton_append]

theorem fits_of_collect (typed : ∀ c ∈ candidates, CandidateTyped c) (short : required.length < 2 ^ 63)
    {start facts : List Fact}
    (collected : candidates.foldlM (collectTurn .debug (PyStr.sortedSet required) request) start = .ok facts) :
    ∀ c ∈ candidates, Fits required request c := by
  induction candidates generalizing start with
  | nil => exact List.forall_mem_nil _
  | cons c candidates ih =>
    obtain ⟨typedFirst, typedRest⟩ := List.forall_mem_cons.1 typed
    rw [List.foldlM_cons] at collected
    obtain ⟨next, turn, rest⟩ := bind_ok.1 collected
    obtain ⟨-, valid, f, made, rfl⟩ := collectTurn_eq_ok_iff.1 turn
    exact List.forall_mem_cons.2 ⟨fits_of_factOf typedFirst valid short made, ih typedRest rest⟩

/-! ## The catalog -/

theorem isString_of_mem (typed : ∀ c ∈ candidates, CandidateTyped c) {set : List PyStr} {f : Fact}
    (mem : f ∈ candidates.map (Ranking.factOf set request)) : IsString f.handle ∧ IsString f.version := by
  obtain ⟨c, inside, rfl⟩ := List.mem_map.1 mem
  have texts := (typed c inside).texts
  exact ⟨texts _ (by simp [Ranking.factOf]), texts _ (by simp [Ranking.factOf])⟩

theorem sort_facts (typed : ∀ c ∈ candidates, CandidateTyped c) {set : List PyStr} :
    (candidates.map (Ranking.factOf set request)).insertionSort (fun a b => (compareFacts a b).isLE) =
      (candidates.map (Ranking.factOf set request)).insertionSort fun a b => a.key ≤ b.key := by
  apply insertionSort_congr
  intro f hf g hg
  exact compareFacts_isLE_iff (isString_of_mem typed hf) (isString_of_mem typed hg)

theorem sort_entries {items : List Fact} (typed : ∀ f ∈ items, IsString f.handle ∧ IsString f.version) :
    (undominated items).insertionSort (fun a b => (compareEntries a b).isLE) =
      (undominated items).insertionSort fun a b => a.key ≤ b.key := by
  have strings {e : FrontierEntry} (mem : e ∈ undominated items) : IsString e.handle ∧ IsString e.version := by
    obtain ⟨f, inside, -, rfl⟩ := mem_undominated.1 mem
    exact typed f inside
  apply insertionSort_congr
  intro d hd e he
  exact compareEntries_isLE_iff (strings hd) (strings he)

/-- The two rankings on the arguments that both accept: the frontier is the set of the eligible candidates with both
estimates that no other such candidate dominates, and the catalogs of both profiles are the Python one exactly when
every running score stays in 64 bits. -/
theorem rankings_agree_iff (input : Input) {python rust : Catalog}
    (ranked : rank input.candidates input.required input.request = .ok python)
    (admitted : rankCapabilities .release input = .ok rust) :
    (∀ e, e ∈ python.paretoFrontier ↔
      ∃ c ∈ input.candidates, Undominated input.required input.request input.candidates c ∧ entryOf c = e) ∧
    ((∀ profile, rankCapabilities profile input = .ok python) ↔
      ∀ c ∈ input.candidates, Fits input.required input.request c) := by
  refine ⟨fun e => mem_frontier_iff ranked, fun same => ?_, fun fits profile => ?_⟩
  · obtain ⟨_, -, run⟩ := bind_ok.1 (same .debug)
    obtain ⟨facts, collected, -⟩ := bind_ok.1 run
    rw [bTreeSet_eq input.requiredTyped] at collected
    exact fits_of_collect input.candidatesTyped input.requiredLength collected
  · obtain ⟨_, checked, run⟩ := bind_ok.1 admitted
    obtain ⟨facts, collected, -⟩ := bind_ok.1 run
    rw [bTreeSet_eq input.requiredTyped] at collected
    have strings (f : Fact) (mem : f ∈ measured ((input.candidates.map (Ranking.factOf (PyStr.sortedSet input.required)
        input.request)).insertionSort fun a b => a.key ≤ b.key)) : IsString f.handle ∧ IsString f.version :=
      isString_of_mem input.candidatesTyped ((List.mem_insertionSort _).1 (List.mem_of_mem_filter mem))
    rw [rank_eq_ok ranked]
    refine bind_ok.2 ⟨_, checked, ?_⟩
    rw [bTreeSet_eq input.requiredTyped]
    refine bind_ok.2 ⟨_, collect_of_fits input.candidatesTyped input.requiredLength fits collected, ?_⟩
    dsimp only
    rw [List.nil_append, sort_facts input.candidatesTyped, sort_entries strings]
    rfl

/-! ## Samples -/

def worker (handle : PyStr) (estimate : Option ℤ) : CapabilityCandidate where
  handle := handle
  kind := "worker"
  version := "1"
  capabilities := ["query"]
  estimatedCost := estimate
  estimatedLatencyMs := estimate
  policyEligible := some true

def smallCall : Input where
  candidates := [worker "a" (some 1), worker "b" (some 2)]
  required := ["query"]
  request := {}
  candidatesTyped := List.forall_mem_cons.2 ⟨⟨by decide, by decide, by decide, by decide⟩,
    List.forall_mem_singleton.2 ⟨by decide, by decide, by decide, by decide⟩⟩
  requiredTyped := by decide +kernel
  requestTyped := ⟨by decide, by decide, by decide⟩
  requiredLength := by decide

/-- A worker with the largest cost and latency, and one without estimates. -/
def extremeCall : Input where
  candidates := [worker "a" (some (2 ^ 63 - 1)), worker "b" none]
  required := ["query"]
  request := {}
  candidatesTyped := List.forall_mem_cons.2 ⟨⟨by decide, by decide, by decide, by decide⟩,
    List.forall_mem_singleton.2 ⟨by decide, by decide, by decide, by decide⟩⟩
  requiredTyped := by decide
  requestTyped := ⟨by decide, by decide, by decide⟩
  requiredLength := by decide

theorem rankings_agree_iff_small :
    ∃ python, rank smallCall.candidates smallCall.required smallCall.request = .ok python ∧
      ∀ profile, rankCapabilities profile smallCall = .ok python := by
  have returns : ((rank smallCall.candidates smallCall.required smallCall.request).toOption.map fun _ => ()) =
      some () := by decide +kernel
  have accepts : ((rankCapabilities .release smallCall).toOption.map fun _ => ()) = some () := by decide +kernel
  obtain ⟨python, ranked, -⟩ := Except.exists_of_map_toOption returns
  obtain ⟨rust, admitted, -⟩ := Except.exists_of_map_toOption accepts
  refine ⟨python, ranked, (rankings_agree_iff smallCall ranked admitted).2.2 ?_⟩
  exact List.forall_mem_cons.2 ⟨⟨by decide, by decide, by decide⟩,
    List.forall_mem_singleton.2 ⟨by decide, by decide, by decide⟩⟩

/-- Both accept the extreme call.  A debug build panics, and a release build gives the first worker the score 102 and
the first place; and the frontier lacks the second worker, which is eligible and which nothing dominates. -/
theorem not_rankings_agree_extreme :
    (rank extremeCall.candidates extremeCall.required extremeCall.request).toOption.map (fun catalog =>
      (catalog.candidates.map Fact.score, catalog.paretoFrontier.map FrontierEntry.handle)) =
        some ([100, 102 - 2 ^ 64], [("a" : PyStr)]) ∧
    rankCapabilities .debug extremeCall = .error .panic ∧
    (rankCapabilities .release extremeCall).toOption.map (fun catalog => catalog.candidates.map Fact.score) =
        some [102, 100] ∧
    Eligible extremeCall.required extremeCall.request (worker "b" none) ∧ estimates (worker "b" none) = none := by
  refine ⟨by decide +kernel, by decide +kernel, by decide +kernel, ?_, rfl⟩
  exact ⟨by decide, rfl, rfl, nofun, nofun, nofun⟩

end Rust

end Ranking

end SimplicioFast
