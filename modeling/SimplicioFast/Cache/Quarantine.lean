import SimplicioFast.Cache.Decision
import SimplicioFast.Lib.Machine
import SimplicioFast.Lib.Sha256Eval

/-!
# Quarantined and disabled decisions

A key that has been quarantined or disabled stays blocked until the generation changes: no lookup serves
it and no put stores it (`Sticky`).  But the tables of quarantined and of disabled keys are bounded, and a
key that is pushed out of one of them, and is not in the other, is no longer refused (`Forgets`).  The law
holds in every state of a run exactly when no call of the run pushes out a blocked key
(`quarantine_sticky_iff`).
-/

namespace SimplicioFast

namespace DecisionCache

open Decision

/-! ## The bounded tables -/

variable {maxEntries : ℕ} {store other : Dict PyStr PyStr} {d k reason : PyStr}

/-- Remembering the key `d` pushes the key `k` out of the full table. -/
structure PushedOut (maxEntries : ℕ) (store : Dict PyStr PyStr) (d k : PyStr) : Prop where
  new : store.get? d = none
  full : store.entries.length = maxEntries
  oldest : store.keys.head? = some k

theorem entries_remember (maxEntries : ℕ) (store : Dict PyStr PyStr) (d reason : PyStr) :
    (remember maxEntries store d reason).entries =
      ((store.erase d).entries ++ [(d, reason)]).drop
        ((store.erase d).entries.length + 1 - maxEntries) := by
  have absent : d ∉ (store.erase d).entries.map Prod.fst :=
    (Dict.get?_eq_none_iff _ _).1 (by simp)
  have entries : ((store.erase d).set d reason).entries =
      (store.erase d).entries ++ [(d, reason)] := Dict.setEntries_of_notMem reason absent
  simp only [remember, Dict.dropOldest, entries, List.length_append, List.length_cons,
    List.length_nil]

theorem length_remember_le :
    (remember maxEntries store d reason).entries.length ≤ maxEntries := by
  rw [entries_remember, List.length_drop, List.length_append, List.length_cons, List.length_nil]
  omega

theorem isSome_remember_iff (bound : store.entries.length ≤ maxEntries)
    (positive : 1 ≤ maxEntries) : ((remember maxEntries store d reason).get? k).isSome ↔
      k = d ∨ (store.get? k).isSome ∧ ¬ PushedOut maxEntries store d k := by
  have table : ((remember maxEntries store d reason).get? k).isSome ↔
      k ∈ ((remember maxEntries store d reason).entries.map Prod.fst) := Dict.isSome_get?_iff _ _
  rw [table, entries_remember]
  have inside : k ∈ (store.erase d).entries.map Prod.fst ↔ k ≠ d ∧ (store.get? k).isSome := by
    rw [← Dict.keys, ← Dict.isSome_get?_iff, Dict.get?_erase]
    by_cases same : k = d <;> simp [same]
  by_cases known : store.get? d = none
  · -- nothing was removed, and the oldest key goes when the table is full
    have same : (store.erase d).entries = store.entries := by
      refine List.filter_eq_self.2 fun e mem => ?_
      have : e.1 ≠ d := by
        rintro rfl
        rw [Dict.get?_eq_none_iff] at known
        exact known (List.mem_map.2 ⟨e, mem, rfl⟩)
      simpa using this
    rw [same] at inside ⊢
    rcases Nat.lt_or_ge store.entries.length maxEntries with room | full
    · rw [Nat.sub_eq_zero_of_le room, List.drop_zero, List.map_append, List.mem_append, inside]
      have kept : ¬ PushedOut maxEntries store d k := fun pushed => by
        have := pushed.full
        omega
      by_cases same : k = d <;> simp [same, kept]
    · have full : store.entries.length = maxEntries := le_antisymm bound full
      have one : store.entries.length + 1 - maxEntries = 1 := by omega
      obtain ⟨first, rest, entries⟩ := List.exists_cons_of_length_pos (l := store.entries) (by omega)
      have pushed : PushedOut maxEntries store d k ↔ k = first.1 := by
        constructor
        · intro pushed
          have oldest := pushed.oldest
          rw [Dict.keys, entries, List.map_cons, List.head?_cons] at oldest
          exact (Option.some.inj oldest).symm
        · rintro rfl
          exact ⟨known, full, by rw [Dict.keys, entries]; rfl⟩
      have nodup := store.nodup
      rw [entries, List.map_cons, List.nodup_cons] at nodup
      rw [one, pushed, entries, List.cons_append, List.drop_one, List.tail_cons, List.map_append,
        List.mem_append]
      rw [entries, List.map_cons, List.mem_cons] at inside
      constructor
      · rintro (mem | new)
        · obtain ⟨-, found⟩ := inside.1 (.inr mem)
          exact .inr ⟨found, fun same => nodup.1 (same ▸ mem)⟩
        · exact .inl (by simpa using new)
      · rintro (rfl | ⟨found, later⟩)
        · exact .inr (by simp)
        · by_cases same : k = d
          · exact .inr (by simp [same])
          · exact .inl ((inside.2 ⟨same, found⟩).resolve_left later)
  · -- the key moves to the end of the table
    obtain ⟨v, found⟩ := Option.ne_none_iff_exists'.1 known
    have shorter := Dict.length_erase_lt found
    have kept : ¬ PushedOut maxEntries store d k := fun pushed => known pushed.new
    rw [Nat.sub_eq_zero_of_le (by omega), List.drop_zero, List.map_append, List.mem_append, inside]
    by_cases same : k = d <;> simp [same, kept]

end DecisionCache

/-! ## Runs -/

/-- A cache in use: `blocked` are the keys that have been quarantined or disabled since the generation
last changed. -/
structure DecisionRun where
  cache : DecisionCache
  blocked : List DecisionCacheKey

namespace DecisionRun

open Decision DecisionCache

/-- A call of the cache. -/
inductive Call
  | activateGeneration (generation : PyStr)
  | put (key : DecisionCacheKey) (decision expected : JsonObject)
  | lookup (key : DecisionCacheKey) (observed : JsonObject)
  | invalidate (key : DecisionCacheKey) (reason : PyStr)
  | invalidateDrift (key : DecisionCacheKey) (dimensions : List PyStr) (reason : Option PyStr)
  | quarantine (key : DecisionCacheKey) (reason : PyStr)
  | disableForRegression (key : DecisionCacheKey) (reason : PyStr)

variable (lower : PyStr → PyStr)

def perform (c : DecisionCache) : Call → Except DecisionRaised (DecisionReceipt × DecisionCache)
  | .activateGeneration generation => c.activateGeneration generation
  | .put key decision expected => c.put lower key decision expected
  | .lookup key observed => c.lookup lower key observed
  | .invalidate key reason => c.invalidate key reason
  | .invalidateDrift key dimensions reason => c.invalidateDrift key dimensions reason
  | .quarantine key reason => c.quarantine key reason
  | .disableForRegression key reason => c.disableForRegression key reason

/-- The key of a call of the given outcome. -/
def keyOf : Call → List DecisionCacheKey
  | .lookup key _ => [key]
  | .quarantine key _ => [key]
  | .disableForRegression key _ => [key]
  | _ => []

/-- The keys that a call with the receipt has quarantined or disabled: a lookup does so when it finds a
contradiction. -/
def newlyBlocked (call : Call) (receipt : DecisionReceipt) : List DecisionCacheKey :=
  if receipt.operation = "lookup" ∧ receipt.contradictionFields = [] then [] else keyOf call

/-- The run after a call; a call that raises changes nothing. -/
def step (s : DecisionRun) (call : Call) : DecisionRun :=
  match perform lower s.cache call with
  | .error _ => s
  | .ok (receipt, c) => ⟨c, newlyBlocked call receipt ++
      if c.activeGeneration = s.cache.activeGeneration then s.blocked else []⟩

/-- Lookups and puts of the key do not end with a mismatch or a change of the generation. -/
def Current (s : DecisionRun) (key : DecisionCacheKey) : Prop :=
  s.cache.activeGeneration = none ∨ s.cache.activeGeneration = some key.generation

/-- No lookup serves a blocked key, and no put stores it. -/
def Sticky (s : DecisionRun) : Prop :=
  ∀ key ∈ s.blocked, s.Current key →
    (∀ observed r, s.cache.lookup lower key observed = .ok r → r.1.outcome ≠ "hit") ∧
      ∀ decision expected r, s.cache.put lower key decision expected = .ok r →
        r.1.outcome ≠ "stored"

/-- Remembering the key in the table pushes out a blocked key that the other table does not hold. -/
def Pushes (s : DecisionRun) (store other : Dict PyStr PyStr) (key : DecisionCacheKey) : Prop :=
  ∃ key' ∈ s.blocked, s.Current key' ∧
    PushedOut s.cache.maxEntries store key.digest key'.digest ∧ other.get? key'.digest = none

/-- The lookup finds an entry whose expectation the observation contradicts. -/
def Contradicts (s : DecisionRun) (key : DecisionCacheKey) (observed : JsonObject) : Prop :=
  validateSafePayload lower observed.toJson = .ok () ∧
    s.cache.activeGeneration = some key.generation ∧ s.cache.refusal key.digest = none ∧
      ∃ entry, s.cache.entries.get? key.digest = some entry ∧
        contradictionFields entry.expectation observed ≠ []

/-- The call quarantines or disables a key and thereby pushes out a blocked key. -/
def Forgets (s : DecisionRun) : Call → Prop
  | .lookup key observed => s.Contradicts lower key observed ∧
      s.Pushes s.cache.quarantined s.cache.disabled key
  | .quarantine key reason => (∃ r, validateReason reason = .ok r) ∧
      s.Pushes s.cache.quarantined s.cache.disabled key
  | .disableForRegression key reason => (∃ r, validateReason reason = .ok r) ∧
      s.Pushes s.cache.disabled s.cache.quarantined key
  | _ => False

/-! ## Blocked keys are refused -/

variable {lower} {s : DecisionRun} {c : DecisionCache} {key : DecisionCacheKey} {keyDigest : PyStr}

theorem isSome_refusal_iff : (c.refusal keyDigest).isSome ↔
    (c.disabled.get? keyDigest).isSome ∨ (c.quarantined.get? keyDigest).isSome := by
  unfold refusal
  split <;> simp [*]

theorem outcome_of_refusal {outcome reason : PyStr} (h : c.refusal keyDigest = some (outcome, reason)) :
    outcome = "disabled" ∨ outcome = "quarantined" := by
  unfold refusal at h
  split at h <;> cases h
  · exact .inl rfl
  · exact .inr rfl

theorem put_eq_ok {decision expected : JsonObject} {r : DecisionReceipt × DecisionCache}
    (current : s.Current key) (h : s.cache.put lower key decision expected = .ok r) :
    ∃ reason invalidated, r = { s.cache with activeGeneration := some key.generation }.putEntry key
      decision expected reason invalidated := by
  simp only [DecisionCache.put, bind_ok] at h
  obtain ⟨_, -, _, -, h⟩ := h
  rcases current with none | same
  · rw [enterGeneration, if_pos none] at h
    exact ⟨_, _, (Except.ok.inj h).symm⟩
  · have unchanged : { s.cache with activeGeneration := some key.generation } = s.cache := by
      rw [← same]
    rw [enterGeneration, if_neg (by simp [same]), if_pos same] at h
    rw [unchanged]
    exact ⟨_, _, (Except.ok.inj h).symm⟩

theorem put_empty (lower : PyStr → PyStr) (c : DecisionCache) (key : DecisionCacheKey) :
    ∃ r, c.put lower key .empty .empty = .ok r := ⟨_, rfl⟩

section

variable {decision expected observed : JsonObject} {outcome reason generationReason : PyStr}
  {invalidated : List PyStr}

theorem putEntry_of_refusal (h : c.refusal key.digest = some (outcome, reason)) :
    (c.putEntry key decision expected generationReason invalidated).1.outcome = outcome := by
  rw [putEntry, h]
  rfl

theorem putEntry_of_none (h : c.refusal key.digest = none) :
    (c.putEntry key decision expected generationReason invalidated).1.outcome = "stored" := by
  rw [putEntry, h]
  rfl

theorem lookupEntry_of_refusal (h : c.refusal key.digest = some (outcome, reason)) :
    (c.lookupEntry key observed).1.outcome = outcome := by
  rw [lookupEntry, h]
  rfl

end

theorem serve_hit {entry : DecisionCacheEntry} {observed : JsonObject}
    (h : contradictionFields entry.expectation observed = []) : c.serve key entry observed =
      ({ about key "lookup" "hit" "cache_hit" with decision := some entry.decision },
        { c with entries := (c.entries.erase key.digest).set key.digest entry }) := by
  unfold serve
  exact if_pos h

theorem miss_ne_hit : ("miss" : PyStr) ≠ "hit" := by decide

theorem quarantine_ne_lookup : ("quarantine" : PyStr) ≠ "lookup" := by decide

theorem disable_ne_lookup : ("disable" : PyStr) ≠ "lookup" := by decide

theorem sticky_iff : s.Sticky lower ↔ ∀ key ∈ s.blocked, s.Current key →
    (s.cache.refusal key.digest).isSome := by
  refine forall₂_congr fun key mem => forall_congr' fun current => ?_
  constructor
  · rintro ⟨-, never⟩
    by_contra missing
    have none : s.cache.refusal key.digest = none := by simpa using missing
    obtain ⟨r, returned⟩ := put_empty lower s.cache key
    obtain ⟨reason, invalidated, same⟩ := put_eq_ok current returned
    refine never _ _ r returned ?_
    rw [same]
    exact putEntry_of_none none
  · intro refused
    obtain ⟨⟨outcome, reason⟩, refusal⟩ := Option.isSome_iff_exists.1 refused
    have kind := outcome_of_refusal refusal
    constructor
    · intro observed r returned
      simp only [DecisionCache.lookup, bind_ok] at returned
      obtain ⟨_, -, returned⟩ := returned
      split_ifs at returned
      · cases returned
        exact miss_ne_hit
      · cases returned
        exact miss_ne_hit
      · cases returned
        rw [lookupEntry_of_refusal refusal]
        rcases kind with rfl | rfl <;> decide
    · intro decision expected r returned
      obtain ⟨reason', invalidated, rfl⟩ := put_eq_ok current returned
      have found : DecisionCache.refusal { s.cache with activeGeneration := some key.generation }
        key.digest = some (outcome, reason) := refusal
      rw [putEntry_of_refusal found]
      rcases kind with rfl | rfl <;> decide

/-! ## What a call does to the tables -/

/-- The tables are within their bound. -/
structure Bounded (c : DecisionCache) : Prop where
  positive : 1 ≤ c.maxEntries
  quarantined : c.quarantined.entries.length ≤ c.maxEntries
  disabled : c.disabled.entries.length ≤ c.maxEntries

/-- The two runs have the same generation and the same bound. -/
structure SameGeneration (s t : DecisionRun) : Prop where
  generation : t.cache.activeGeneration = s.cache.activeGeneration
  maxEntries : t.cache.maxEntries = s.cache.maxEntries

/-- What a call does: it enters another generation, leaves the tables alone, or remembers a key in one of
them. -/
inductive Effect (lower : PyStr → PyStr) (s : DecisionRun) (call : Call) : DecisionRun → Prop
  | entered {t : DecisionRun} (blocked : t.blocked = []) (bounded : Bounded t.cache)
    (remembers : ¬ s.Forgets lower call) : Effect lower s call t
  | kept {t : DecisionRun} (same : SameGeneration s t) (blocked : t.blocked = s.blocked)
    (quarantined : t.cache.quarantined = s.cache.quarantined)
    (disabled : t.cache.disabled = s.cache.disabled) (remembers : ¬ s.Forgets lower call) :
    Effect lower s call t
  | quarantined {t : DecisionRun} (key : DecisionCacheKey) (reason : PyStr)
    (same : SameGeneration s t) (blocked : t.blocked = key :: s.blocked)
    (quarantined : t.cache.quarantined =
      remember s.cache.maxEntries s.cache.quarantined key.digest reason)
    (disabled : t.cache.disabled = s.cache.disabled)
    (forgets : s.Forgets lower call ↔ s.Pushes s.cache.quarantined s.cache.disabled key) :
    Effect lower s call t
  | disabled {t : DecisionRun} (key : DecisionCacheKey) (reason : PyStr)
    (same : SameGeneration s t) (blocked : t.blocked = key :: s.blocked)
    (quarantined : t.cache.quarantined = s.cache.quarantined)
    (disabled : t.cache.disabled =
      remember s.cache.maxEntries s.cache.disabled key.digest reason)
    (forgets : s.Forgets lower call ↔ s.Pushes s.cache.disabled s.cache.quarantined key) :
    Effect lower s call t

theorem step_of_error {call : Call} {x : DecisionRaised} (h : perform lower s.cache call = .error x) :
    s.step lower call = s := by
  rw [step, h]

theorem step_of_ok {call : Call} {r : DecisionReceipt × DecisionCache}
    (h : perform lower s.cache call = .ok r) : s.step lower call =
      ⟨r.2, newlyBlocked call r.1 ++
        if r.2.activeGeneration = s.cache.activeGeneration then s.blocked else []⟩ := by
  rw [step, h]

theorem blocked_step {call : Call} {r : DecisionReceipt × DecisionCache}
    (h : perform lower s.cache call = .ok r) (operation : r.1.operation ≠ "lookup")
    (generation : r.2.activeGeneration = s.cache.activeGeneration) :
    (s.step lower call).blocked = keyOf call ++ s.blocked := by
  rw [step_of_ok h]
  dsimp only
  rw [if_pos generation, newlyBlocked, if_neg fun h => operation h.1]

theorem Effect.of_kept {call : Call} (remembers : ¬ s.Forgets lower call)
    (h : ∀ r, perform lower s.cache call = .ok r → newlyBlocked call r.1 = [] ∧
      r.2.activeGeneration = s.cache.activeGeneration ∧ r.2.maxEntries = s.cache.maxEntries ∧
        r.2.quarantined = s.cache.quarantined ∧ r.2.disabled = s.cache.disabled) :
    Effect lower s call (s.step lower call) := by
  cases performed : perform lower s.cache call with
  | error x =>
    rw [step_of_error performed]
    exact .kept ⟨rfl, rfl⟩ rfl rfl rfl remembers
  | ok r =>
    obtain ⟨new, generation, maxEntries, quarantined, disabled⟩ := h r performed
    rw [step_of_ok performed, new, if_pos generation]
    exact .kept ⟨generation, maxEntries⟩ rfl quarantined disabled remembers

theorem bounded_clearGeneration (bounded : Bounded c) (generation : PyStr) :
    Bounded (c.clearGeneration generation).2 :=
  ⟨bounded.positive, Nat.zero_le _, Nat.zero_le _⟩

theorem effect_activateGeneration (bounded : Bounded s.cache) (generation : PyStr) :
    Effect lower s (.activateGeneration generation)
      (s.step lower (.activateGeneration generation)) := by
  by_cases same : s.cache.activeGeneration = some generation
  · refine .of_kept id fun r performed => ?_
    simp only [perform, activateGeneration, bind_ok] at performed
    obtain ⟨g, valid, performed⟩ := performed
    have name : g = generation := by
      simp only [validateIdentifier, bind_ok] at valid
      obtain ⟨_, -, _, -, _, -, valid⟩ := valid
      exact (Except.ok.inj valid).symm
    rw [if_pos (by rw [same, name])] at performed
    cases performed
    exact ⟨rfl, rfl, rfl, rfl, rfl⟩
  · cases performed : perform lower s.cache (.activateGeneration generation) with
    | error x =>
      rw [step_of_error performed]
      exact .kept ⟨rfl, rfl⟩ rfl rfl rfl id
    | ok r =>
      rw [step_of_ok performed]
      simp only [perform, activateGeneration, bind_ok] at performed
      obtain ⟨g, valid, performed⟩ := performed
      have name : g = generation := by
        simp only [validateIdentifier, bind_ok] at valid
        obtain ⟨_, -, _, -, _, -, valid⟩ := valid
        exact (Except.ok.inj valid).symm
      subst name
      rw [if_neg same] at performed
      cases performed
      refine .entered ?_ (bounded_clearGeneration bounded g) id
      have changed : some g ≠ s.cache.activeGeneration := fun e => same e.symm
      exact (if_neg changed : (if some g = s.cache.activeGeneration then s.blocked else []) = [])

theorem newlyBlocked_of_keyOf {call : Call} (h : keyOf call = []) (r : DecisionReceipt) :
    newlyBlocked call r = [] := by
  rw [newlyBlocked, h, ite_self]

theorem putEntry_tables (c : DecisionCache) (key : DecisionCacheKey) (decision expected : JsonObject)
    (reason : PyStr) (invalidated : List PyStr) :
    let c' := (c.putEntry key decision expected reason invalidated).2
    c'.activeGeneration = c.activeGeneration ∧ c'.maxEntries = c.maxEntries ∧
      c'.quarantined = c.quarantined ∧ c'.disabled = c.disabled := by
  unfold putEntry
  split <;> exact ⟨rfl, rfl, rfl, rfl⟩

theorem enterGeneration_spec (bounded : Bounded c) (generation : PyStr) :
    Bounded (c.enterGeneration generation).2.2 ∧
      (c.enterGeneration generation).2.2.activeGeneration = some generation := by
  unfold enterGeneration
  split_ifs with none same
  · exact ⟨⟨bounded.positive, bounded.quarantined, bounded.disabled⟩, rfl⟩
  · exact ⟨bounded, same⟩
  · exact ⟨bounded_clearGeneration bounded generation, rfl⟩

theorem effect_put (bounded : Bounded s.cache) (key : DecisionCacheKey)
    (decision expected : JsonObject) : Effect lower s (.put key decision expected)
      (s.step lower (.put key decision expected)) := by
  by_cases same : s.cache.activeGeneration = some key.generation
  · refine .of_kept id fun r performed => ?_
    obtain ⟨reason, invalidated, rfl⟩ := put_eq_ok (.inr same) performed
    obtain ⟨generation, maxEntries, quarantined, disabled⟩ := putEntry_tables
      { s.cache with activeGeneration := some key.generation } key decision expected reason
      invalidated
    exact ⟨newlyBlocked_of_keyOf rfl _, generation.trans same.symm, maxEntries, quarantined, disabled⟩
  · cases performed : perform lower s.cache (.put key decision expected) with
    | error x =>
      rw [step_of_error performed]
      exact .kept ⟨rfl, rfl⟩ rfl rfl rfl id
    | ok r =>
      rw [step_of_ok performed]
      simp only [perform, DecisionCache.put, bind_ok] at performed
      obtain ⟨_, -, _, -, performed⟩ := performed
      obtain ⟨inside, entered⟩ := enterGeneration_spec bounded key.generation
      obtain ⟨generation, maxEntries, quarantined, disabled⟩ := putEntry_tables
        (s.cache.enterGeneration key.generation).2.2 key decision expected
        (s.cache.enterGeneration key.generation).1 (s.cache.enterGeneration key.generation).2.1
      cases performed
      refine .entered ?_ ?_ id
      · have changed : some key.generation ≠ s.cache.activeGeneration := fun e => same e.symm
        dsimp only
        rw [newlyBlocked_of_keyOf rfl, generation, entered, if_neg changed, List.nil_append]
      · refine ⟨?_, ?_, ?_⟩
        · rw [maxEntries]
          exact inside.positive
        · rw [quarantined, maxEntries]
          exact inside.quarantined
        · rw [disabled, maxEntries]
          exact inside.disabled

theorem effect_lookup (key : DecisionCacheKey) (observed : JsonObject) :
    Effect lower s (.lookup key observed) (s.step lower (.lookup key observed)) := by
  by_cases contradicts : s.Contradicts lower key observed
  · obtain ⟨valid, active, refusal, entry, found, fields⟩ := contradicts
    have performed : perform lower s.cache (.lookup key observed) =
        .ok (s.cache.lookupEntry key observed) := by
      rw [perform, DecisionCache.lookup, valid]
      change (if s.cache.activeGeneration = none then _ else _) = _
      rw [if_neg (by simp [active]), if_neg (not_not.2 active)]
      rfl
    have served : s.cache.lookupEntry key observed = s.cache.serve key entry observed := by
      rw [lookupEntry, refusal, found]
    rw [step_of_ok performed, served, serve, if_neg fields]
    refine .quarantined key "observed_telemetry_contradiction" ⟨rfl, rfl⟩ ?_ rfl rfl ?_
    · rw [if_pos rfl, newlyBlocked, if_neg fun h => fields h.2]
      rfl
    · exact and_iff_right ⟨valid, active, refusal, entry, found, fields⟩
  · refine .of_kept (fun forgets => contradicts forgets.1) fun r performed => ?_
    simp only [perform, DecisionCache.lookup, bind_ok] at performed
    obtain ⟨⟨⟩, valid, performed⟩ := performed
    split_ifs at performed with none mismatch
    · cases performed
      exact ⟨if_pos ⟨rfl, rfl⟩, rfl, rfl, rfl, rfl⟩
    · cases performed
      exact ⟨if_pos ⟨rfl, rfl⟩, rfl, rfl, rfl, rfl⟩
    · cases performed
      unfold lookupEntry
      split
      · exact ⟨if_pos ⟨rfl, rfl⟩, rfl, rfl, rfl, rfl⟩
      · next entry refusal found =>
        by_cases fields : contradictionFields entry.expectation observed = []
        · rw [serve_hit fields]
          exact ⟨if_pos ⟨rfl, rfl⟩, rfl, rfl, rfl, rfl⟩
        · exact absurd ⟨valid, not_not.1 mismatch, refusal, entry, found, fields⟩ contradicts
      · split <;> exact ⟨if_pos ⟨rfl, rfl⟩, rfl, rfl, rfl, rfl⟩

theorem effect_invalidate (key : DecisionCacheKey) (reason : PyStr) :
    Effect lower s (.invalidate key reason) (s.step lower (.invalidate key reason)) := by
  refine .of_kept id fun r performed => ?_
  simp only [perform, DecisionCache.invalidate, bind_ok] at performed
  obtain ⟨_, -, performed⟩ := performed
  cases performed
  exact ⟨newlyBlocked_of_keyOf rfl _, rfl, rfl, rfl, rfl⟩

theorem effect_invalidateDrift (key : DecisionCacheKey) (dimensions : List PyStr)
    (reason : Option PyStr) : Effect lower s (.invalidateDrift key dimensions reason)
      (s.step lower (.invalidateDrift key dimensions reason)) := by
  refine .of_kept id fun r performed => ?_
  simp only [perform, DecisionCache.invalidateDrift, bind_ok] at performed
  obtain ⟨_, -, _, -, performed⟩ := performed
  cases performed
  exact ⟨newlyBlocked_of_keyOf rfl _, rfl, rfl, rfl, rfl⟩

theorem quarantine_eq_ok {reason text : PyStr} (valid : validateReason reason = .ok text) :
    perform lower c (.quarantine key reason) = .ok
      ({ about key "quarantine" "quarantined" text with removed := some (c.removeEntry key).1 },
        { (c.removeEntry key).2 with
          quarantined := remember c.maxEntries c.quarantined key.digest text }) := by
  rw [perform, DecisionCache.quarantine, valid]
  rfl

theorem effect_quarantine (key : DecisionCacheKey) (reason : PyStr) :
    Effect lower s (.quarantine key reason) (s.step lower (.quarantine key reason)) := by
  cases valid : validateReason reason with
  | error x =>
    refine .of_kept (fun forgets => ?_) fun r performed => ?_
    · obtain ⟨r, returned⟩ := forgets.1
      rw [valid] at returned
      cases returned
    · rw [perform, DecisionCache.quarantine, valid] at performed
      cases performed
  | ok text =>
    have performed : perform lower s.cache (.quarantine key reason) = .ok _ :=
      quarantine_eq_ok valid
    have blocked := blocked_step performed quarantine_ne_lookup rfl
    rw [step_of_ok performed] at blocked ⊢
    exact .quarantined key text ⟨rfl, rfl⟩ blocked rfl rfl (and_iff_right ⟨text, valid⟩)

theorem disableForRegression_eq_ok {reason text : PyStr} (valid : validateReason reason = .ok text) :
    perform lower c (.disableForRegression key reason) = .ok
      ({ about key "disable" "disabled" text with removed := some (c.removeEntry key).1 },
        { (c.removeEntry key).2 with
          disabled := remember c.maxEntries c.disabled key.digest text }) := by
  rw [perform, DecisionCache.disableForRegression, valid]
  rfl

theorem effect_disableForRegression (key : DecisionCacheKey) (reason : PyStr) :
    Effect lower s (.disableForRegression key reason)
      (s.step lower (.disableForRegression key reason)) := by
  cases valid : validateReason reason with
  | error x =>
    refine .of_kept (fun forgets => ?_) fun r performed => ?_
    · obtain ⟨r, returned⟩ := forgets.1
      rw [valid] at returned
      cases returned
    · rw [perform, DecisionCache.disableForRegression, valid] at performed
      cases performed
  | ok text =>
    have performed : perform lower s.cache (.disableForRegression key reason) = .ok _ :=
      disableForRegression_eq_ok valid
    have blocked := blocked_step performed disable_ne_lookup rfl
    rw [step_of_ok performed] at blocked ⊢
    exact .disabled key text ⟨rfl, rfl⟩ blocked rfl rfl (and_iff_right ⟨text, valid⟩)

theorem effect_step (bounded : Bounded s.cache) (call : Call) :
    Effect lower s call (s.step lower call) := by
  cases call with
  | activateGeneration generation => exact effect_activateGeneration bounded generation
  | put key decision expected => exact effect_put bounded key decision expected
  | lookup key observed => exact effect_lookup key observed
  | invalidate key reason => exact effect_invalidate key reason
  | invalidateDrift key dimensions reason => exact effect_invalidateDrift key dimensions reason
  | quarantine key reason => exact effect_quarantine key reason
  | disableForRegression key reason => exact effect_disableForRegression key reason

/-! ## The law -/

theorem Effect.bounded {call : Call} {t : DecisionRun} (effect : Effect lower s call t)
    (bounded : Bounded s.cache) : Bounded t.cache := by
  cases effect with
  | entered _ inside => exact inside
  | kept same _ quarantined disabled =>
    refine ⟨?_, ?_, ?_⟩
    · rw [same.maxEntries]
      exact bounded.positive
    · rw [quarantined, same.maxEntries]
      exact bounded.quarantined
    · rw [disabled, same.maxEntries]
      exact bounded.disabled
  | quarantined key reason same _ quarantined disabled =>
    refine ⟨?_, ?_, ?_⟩
    · rw [same.maxEntries]
      exact bounded.positive
    · rw [quarantined, same.maxEntries]
      exact length_remember_le
    · rw [disabled, same.maxEntries]
      exact bounded.disabled
  | disabled key reason same _ quarantined disabled =>
    refine ⟨?_, ?_, ?_⟩
    · rw [same.maxEntries]
      exact bounded.positive
    · rw [quarantined, same.maxEntries]
      exact bounded.quarantined
    · rw [disabled, same.maxEntries]
      exact length_remember_le

theorem remembered_iff {store other : Dict PyStr PyStr} {reason : PyStr} (bounded : Bounded s.cache)
    (bound : store.entries.length ≤ s.cache.maxEntries)
    (held : ∀ key ∈ s.blocked, s.Current key →
      (other.get? key.digest).isSome ∨ (store.get? key.digest).isSome) :
    (∀ key' ∈ key :: s.blocked, s.Current key' → (other.get? key'.digest).isSome ∨
        ((remember s.cache.maxEntries store key.digest reason).get? key'.digest).isSome) ↔
      ¬ s.Pushes store other key := by
  simp only [isSome_remember_iff bound bounded.positive]
  constructor
  · rintro all ⟨key', mem, current, pushed, absent⟩
    rcases all key' (List.mem_cons_of_mem _ mem) current with inOther | same | ⟨-, kept⟩
    · rw [absent] at inOther
      cases inOther
    · -- the key that is remembered is new, and the one that is pushed out is not
      have oldest : key'.digest ∈ store.keys := List.mem_of_mem_head? pushed.oldest
      have new := pushed.new
      rw [Dict.get?_eq_none_iff, ← same] at new
      exact new oldest
    · exact kept pushed
  · intro kept key' mem current
    rcases List.mem_cons.1 mem with rfl | mem
    · exact .inr (.inl rfl)
    · rcases held key' mem current with inOther | inStore
      · exact .inl inOther
      · by_cases pushed : PushedOut s.cache.maxEntries store key.digest key'.digest
        · refine .inl ?_
          by_contra absent
          exact kept ⟨key', mem, current, pushed, by simpa using absent⟩
        · exact .inr (.inr ⟨inStore, pushed⟩)

theorem current_of_same {t : DecisionRun} (same : SameGeneration s t) (key : DecisionCacheKey) :
    t.Current key ↔ s.Current key := by
  rw [Current, Current, same.generation]

theorem Effect.sticky_iff {call : Call} {t : DecisionRun} (effect : Effect lower s call t)
    (bounded : Bounded s.cache) (sticky : s.Sticky lower) :
    t.Sticky lower ↔ ¬ s.Forgets lower call := by
  have held := DecisionRun.sticky_iff.1 sticky
  simp only [isSome_refusal_iff] at held
  rw [DecisionRun.sticky_iff]
  simp only [isSome_refusal_iff]
  cases effect with
  | entered blocked inside remembers =>
    refine iff_of_true (fun key mem => ?_) remembers
    rw [blocked] at mem
    cases mem
  | kept same blocked quarantined disabled remembers =>
    refine iff_of_true ?_ remembers
    rw [blocked, quarantined, disabled]
    exact fun key mem current => held key mem ((current_of_same same key).1 current)
  | quarantined key reason same blocked quarantined disabled forgets =>
    rw [blocked, quarantined, disabled, forgets]
    simp only [current_of_same same]
    exact remembered_iff bounded bounded.quarantined held
  | disabled key reason same blocked quarantined disabled forgets =>
    rw [blocked, quarantined, disabled, forgets]
    simp only [current_of_same same]
    rw [← remembered_iff bounded bounded.disabled fun key mem current => (held key mem current).symm]
    exact forall₂_congr fun key' mem => imp_congr_right fun current => or_comm

theorem new_bounded {maxEntries : ℤ} {generation : Option PyStr}
    (h : DecisionCache.new maxEntries generation = .ok c) : Bounded c := by
  simp only [DecisionCache.new, bind_ok] at h
  obtain ⟨_, capacity, g, -, same⟩ := h
  cases same
  refine ⟨?_, Nat.zero_le _, Nat.zero_le _⟩
  unfold check at capacity
  split at capacity
  · next bounds =>
    simp only [Bool.and_eq_true, decide_eq_true_eq] at bounds
    change 1 ≤ maxEntries.toNat
    omega
  · cases capacity

/-- In a run of a new cache no blocked key is served or stored in any state exactly when no call of the
run pushes a blocked key out of the tables. -/
theorem quarantine_sticky_iff {maxEntries : ℤ} {generation : Option PyStr}
    (h : DecisionCache.new maxEntries generation = .ok c) (calls : List Call) :
    Machine.Always (step lower) (Sticky lower) ⟨c, []⟩ calls ↔
      Machine.Along (step lower) (fun s call => ¬ s.Forgets lower call) ⟨c, []⟩ calls := by
  refine Machine.always_iff_along_of_invariant (J := fun s => Bounded s.cache) (new_bounded h)
    (fun s call bounded => (effect_step bounded call).bounded bounded) ?_
    fun s call bounded sticky => (effect_step bounded call).sticky_iff bounded sticky
  intro key mem
  cases mem

theorem valid_sampleDimensions : ∀ value ∈ (["a", "q", "b", "h", "d", "c", "w", "1", "p", "g"] : List PyStr),
    validateIdentifier value "key_dimension_invalid" = .ok value := by
  decide

def sampleKey (modelDigest : PyStr)
    (valid : validateIdentifier modelDigest "key_dimension_invalid" = .ok modelDigest) :
    DecisionCacheKey where
  modelDigest := modelDigest
  artifactDigest := "a"
  quantDigest := "q"
  backendVersion := "b"
  hardwareTopologyFingerprint := "h"
  devicePlacementClass := "d"
  contextKvPressureBucket := "c"
  workloadClass := "w"
  concurrencyBucket := "1"
  fastPolicyVersion := "p"
  generation := "g"
  valid := by
    intro value mem
    rcases List.mem_cons.1 mem with rfl | mem
    · exact valid
    · exact valid_sampleDimensions value mem

def firstKey : DecisionCacheKey := sampleKey "m1" rfl

def secondKey : DecisionCacheKey := sampleKey "m2" rfl

def smallCache : DecisionCache := ⟨1, some "g", .empty, .empty, .empty, .empty⟩

theorem new_smallCache : DecisionCache.new 1 (some "g") = .ok smallCache := rfl

/-- A cache with one quarantined key refuses it. -/
theorem quarantine_sticky_one : Machine.Always (step PyStr.asciiCasefold)
    (Sticky PyStr.asciiCasefold) ⟨smallCache, []⟩ [.quarantine firstKey "drift"] := by
  refine (quarantine_sticky_iff new_smallCache _).2 ⟨?_, trivial⟩
  rintro ⟨-, key, mem, -⟩
  cases mem

def smallRun : DecisionRun :=
  Machine.run (step PyStr.asciiCasefold) ⟨smallCache, []⟩
    [.quarantine firstKey "drift", .quarantine secondKey "drift"]

theorem digest_firstKey_ne : firstKey.digest ≠ secondKey.digest := by
  simp only [DecisionCacheKey.digest, Sha256.hexdigest_eq]
  decide +kernel

/-- A table for one key holds the last key that was remembered. -/
theorem remembered_last {d d' reason : PyStr} (ne : d ≠ d') :
    (remember 1 (remember 1 .empty d reason) d' reason).get? d = none := by
  simp [remember, Dict.get?, Dict.find, Dict.erase, Dict.set, Dict.setEntries, Dict.empty, Dict.dropOldest, ne]

/-- A second quarantined key pushes the first one out of a table for one key, and a put then stores
the first one. -/
theorem not_always_quarantined : ¬ Machine.Always (step PyStr.asciiCasefold)
    (Sticky PyStr.asciiCasefold) ⟨smallCache, []⟩
    [.quarantine firstKey "drift", .quarantine secondKey "drift"] := by
  intro always
  have sticky : smallRun.Sticky PyStr.asciiCasefold := always [_, _] [] rfl
  have blocked : smallRun.blocked = [secondKey, firstKey] := rfl
  have table : smallRun.cache = { smallCache with
      quarantined := remember 1 (remember 1 .empty firstKey.digest "drift") secondKey.digest "drift" } := rfl
  have refused := sticky_iff.1 sticky firstKey (by simp [blocked]) (.inr rfl)
  rw [table, isSome_refusal_iff] at refused
  rcases refused with held | held
  · cases held
  · rw [remembered_last digest_firstKey_ne] at held
    cases held

end DecisionRun

end SimplicioFast
