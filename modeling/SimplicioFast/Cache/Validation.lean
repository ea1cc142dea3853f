import SimplicioFast.Lib.Json
import SimplicioFast.Lib.Machine
import SimplicioFast.Lib.Sha256

/-!
# The validation cache

`ValidationCache` keeps one result of a validation for every key.  A put whose result differs from the
one kept marks the entry as nondeterministic, and a get for reuse answers only with verified, fresh and
deterministic entries.

A contradicted key is one for which two different results have been recorded since its entry was last
removed.  Its entry should not be reused (`Sticky`), but the mark is made anew by every put, from the
entry that is there: a put that repeats the last result of a contradicted key clears it (`Revives`).
The law holds in every state of a run exactly when no put of the run does so (`always_sticky_iff`).
-/

namespace SimplicioFast

/-- `ValidationCacheError`. -/
inductive ValidationRaised
  | cacheError (reasonCode : PyStr)
deriving DecidableEq

structure ValidationKey where
  sourceMerkle : PyStr
  lockfilesDigest : PyStr
  toolchain : PyStr
  command : List PyStr
  environment : List (PyStr × PyStr) := []
  platform : PyStr := "unknown"
  configDigest : PyStr := []
  fixtureDigest : PyStr := []
  generation : PyStr := []
  producerSchema : PyStr := "simplicio.fast.validation/v1"
  freshnessClass : PyStr := "normal"

structure ValidationResult where
  keyDigest : PyStr
  status : PyStr
  resultDigest : PyStr
  command : List PyStr
  fresh : Bool
  evidence : List PyStr
  verified : Bool
  provenance : List PyStr
  nondeterministic : Bool
  generation : PyStr
deriving DecidableEq

structure ValidationCache where
  entries : Dict PyStr ValidationResult
  leases : Dict PyStr (List PyStr)

/-- The arguments of `put` besides the key. -/
structure PutArgs where
  status : PyStr
  result : Json
  command : Option (List PyStr) := none
  fresh : Bool := true
  evidence : List PyStr := []
  verified : Bool := false
  provenance : List PyStr := []

/-- The receipt of `gc`. -/
structure GcReceipt where
  dryRun : Bool
  removed : List PyStr
  candidates : List PyStr
  retainedGenerations : List PyStr
  leasedEntries : List PyStr
  truncated : Bool

namespace ValidationCache

/-- `ValidationCacheError(reason_code)`, unless the condition holds. -/
def check (condition : Bool) (reasonCode : PyStr) : Except ValidationRaised Unit :=
  if condition then .ok () else .error (.cacheError reasonCode)

def validateStringSequence (value : List PyStr) (reason : PyStr) :
    Except ValidationRaised (List PyStr) := do
  check (value.all fun item => item ≠ []) reason
  return value

/-- `_digest`. -/
def digestOf (value : Json) : PyStr :=
  ("sha256:" : PyStr) ++ PyStr.ofChars (Sha256.hexdigest (PyStr.encodeAscii (value.dumps true)))

/-! ## Keys -/

def CACHE_KEY_SCHEMA : PyStr := "simplicio.fast.validation-cache-key/v1"

def pairLe (p q : PyStr × PyStr) : Bool := p.1 < q.1 || p.1 = q.1 && p.2 ≤ q.2

/-- `ValidationKey.to_dict`. -/
def keyToDict (key : ValidationKey) : Except ValidationRaised Json := do
  check ([key.sourceMerkle, key.lockfilesDigest, key.toolchain, key.platform, key.producerSchema,
      key.freshnessClass].all (fun value => value.strip ≠ []) && key.command ≠ [] &&
      key.command.all fun item => item ≠ []) "cache_key_required_missing"
  check (key.environment.all fun item => item.1 ≠ []) "cache_environment_invalid"
  return .obj [("schema", .str CACHE_KEY_SCHEMA), ("source_merkle", .str key.sourceMerkle),
    ("lockfiles_digest", .str key.lockfilesDigest), ("toolchain", .str key.toolchain),
    ("command", .arr (key.command.map .str)),
    ("environment", .arr ((key.environment.insertionSort fun p q => pairLe p q = true).map
      fun item => .arr [.str item.1, .str item.2])),
    ("platform", .str key.platform), ("config_digest", .str key.configDigest),
    ("fixture_digest", .str key.fixtureDigest), ("generation", .str key.generation),
    ("producer_schema", .str key.producerSchema), ("freshness_class", .str key.freshnessClass)]

/-- `ValidationKey.digest`. -/
def keyDigest (key : ValidationKey) : Except ValidationRaised PyStr := do
  return digestOf (← keyToDict key)

/-! ## Putting and getting -/

/-- `ValidationCache()`. -/
def new : ValidationCache := ⟨.empty, .empty⟩

/-- `ValidationResult.__post_init__`. -/
def checked (r : ValidationResult) : Except ValidationRaised ValidationResult := do
  check (r.status ∈ [("pass" : PyStr), "fail", "partial"]) "result_status_invalid"
  check (r.keyDigest ≠ [] && r.resultDigest ≠ []) "result_digest_invalid"
  check (r.command ≠ [] && r.command.all fun item => item ≠ []) "result_command_invalid"
  check (r.evidence.all fun item => item ≠ []) "result_evidence_invalid"
  check (r.provenance.all fun item => item ≠ []) "result_provenance_invalid"
  check (!r.verified || r.provenance ≠ []) "result_provenance_required"
  return r

/-- The entry that `put` makes when the entry that is there has another result. -/
def contradiction (previous : ValidationResult) (key : ValidationKey) (keyDigest : PyStr)
    (command : List PyStr) (a : PutArgs) : Except ValidationRaised ValidationResult :=
  checked ⟨keyDigest, "partial", digestOf a.result, command, false,
    PyStr.sortedSet (a.evidence ++ previous.evidence ++ [("nondeterministic" : PyStr)]), false, [], true,
    key.generation⟩

/-- The entry that `put` makes otherwise. -/
def plain (key : ValidationKey) (keyDigest : PyStr) (command : List PyStr) (a : PutArgs) :
    Except ValidationRaised ValidationResult := do
  check (!a.verified || a.provenance ≠ []) "result_provenance_required"
  checked ⟨keyDigest, a.status, digestOf a.result, command, a.fresh, a.evidence, a.verified,
    a.provenance, false, key.generation⟩

/-- The entry that `put` makes. -/
def newEntry (c : ValidationCache) (key : ValidationKey) (keyDigest : PyStr) (command : List PyStr)
    (a : PutArgs) : Except ValidationRaised ValidationResult :=
  match c.entries.get? keyDigest with
  | none => plain key keyDigest command a
  | some previous =>
    if previous.resultDigest ≠ digestOf a.result then
      contradiction previous key keyDigest command a
    else plain key keyDigest command a

/-- The command of the result: the one of the key, unless `put` gets another. -/
def commandOf (key : ValidationKey) (a : PutArgs) : Except ValidationRaised (List PyStr) :=
  match a.command with
  | none => .ok key.command
  | some command => validateStringSequence command "result_command_invalid"

def put (c : ValidationCache) (key : ValidationKey) (a : PutArgs) :
    Except ValidationRaised (ValidationResult × ValidationCache) := do
  let d ← keyDigest key
  let command ← commandOf key a
  let _ ← validateStringSequence a.evidence "result_evidence_invalid"
  let _ ← validateStringSequence a.provenance "result_provenance_invalid"
  let entry ← c.newEntry key d command a
  return (entry, { c with entries := c.entries.set d entry })

/-- Whether `get` may answer with the entry. -/
def answers (requireFresh requireVerified reusable : Bool) (e : ValidationResult) : Bool :=
  !(requireFresh && !e.fresh || requireVerified && !e.verified ||
    reusable && (!e.verified || !e.fresh || e.nondeterministic))

def get (c : ValidationCache) (key : ValidationKey) (requireFresh requireVerified reusable : Bool) :
    Except ValidationRaised (Option ValidationResult) := do
  let d ← keyDigest key
  return (c.entries.get? d).filter (answers requireFresh requireVerified reusable)

/-! ## Leases and collection -/

def leaseReceipt (status keyDigest leaseId : PyStr) : Json :=
  .obj [("schema", .str "simplicio.fast.validation-cache-lease/v1"), ("status", .str status),
    ("key_digest", .str keyDigest), ("lease_id", .str leaseId)]

def leasesOf (c : ValidationCache) (keyDigest : PyStr) : List PyStr :=
  (c.leases.get? keyDigest).getD []

def acquireLease (c : ValidationCache) (key : ValidationKey) (leaseId : PyStr) :
    Except ValidationRaised (Json × ValidationCache) := do
  check (leaseId ≠ [] && leaseId.all fun x => x.code ≠ 92 && x.code ≠ 47 && x.code ≠ 0)
    "lease_id_invalid"
  let d ← keyDigest key
  check (c.entries.get? d).isSome "cache_entry_missing"
  return (leaseReceipt "leased" d leaseId,
    { c with leases := c.leases.set d ((c.leasesOf d).erase leaseId ++ [leaseId]) })

def releaseLease (c : ValidationCache) (key : ValidationKey) (leaseId : PyStr) :
    Except ValidationRaised (Json × ValidationCache) := do
  check (leaseId ≠ []) "lease_id_invalid"
  let d ← keyDigest key
  let leases := (c.leasesOf d).erase leaseId
  return (leaseReceipt "released" d leaseId, { c with
    leases := if leases = [] then c.leases.erase d else c.leases.set d leases })

/-- The entries that `gc` may remove. -/
def candidates (c : ValidationCache) (keep : List PyStr) (maxEntries : ℤ) : List PyStr :=
  (((c.entries.entries.filter fun e => e.2.generation ∉ keep && c.leasesOf e.1 = []).map
    Prod.fst).insertionSort (· ≤ ·)).take maxEntries.toNat

def gc (c : ValidationCache) (keepGenerations : List PyStr) (maxEntries : ℤ) (dryRun : Bool) :
    Except ValidationRaised (GcReceipt × ValidationCache) := do
  check (1 ≤ maxEntries) "gc_budget_invalid"
  let keep ← validateStringSequence keepGenerations "gc_generations_invalid"
  let found := c.candidates keep maxEntries
  let removed := if dryRun then [] else found
  return (⟨dryRun, removed, found, PyStr.sortedSet keep,
      ((c.leases.entries.filter fun e => e.2 ≠ []).map Prod.fst).insertionSort (· ≤ ·),
      (found.length : ℤ) = maxEntries⟩,
    { c with entries := removed.foldl Dict.erase c.entries })

end ValidationCache

/-! ## Runs -/

/-- A cache in use: `recorded` are the results that puts have recorded, by key, since the entry of the
key was last removed. -/
structure ValidationRun where
  cache : ValidationCache
  recorded : List (PyStr × PyStr)

namespace ValidationRun

open ValidationCache

/-- A call of the cache. -/
inductive Call
  | put (key : ValidationKey) (a : PutArgs)
  | get (key : ValidationKey) (requireFresh requireVerified reusable : Bool)
  | acquireLease (key : ValidationKey) (leaseId : PyStr)
  | releaseLease (key : ValidationKey) (leaseId : PyStr)
  | gc (keepGenerations : List PyStr) (maxEntries : ℤ) (dryRun : Bool)

/-- A cache that has just been created. -/
def new : ValidationRun := ⟨.new, []⟩

/-- The run after a call; a call that raises changes nothing. -/
def step (s : ValidationRun) : Call → ValidationRun
  | .put key a => match s.cache.put key a with
    | .error _ => s
    | .ok (entry, c) => ⟨c, (entry.keyDigest, entry.resultDigest) :: s.recorded⟩
  | .get _ _ _ _ => s
  | .acquireLease key leaseId => match s.cache.acquireLease key leaseId with
    | .error _ => s
    | .ok (_, c) => ⟨c, s.recorded⟩
  | .releaseLease key leaseId => match s.cache.releaseLease key leaseId with
    | .error _ => s
    | .ok (_, c) => ⟨c, s.recorded⟩
  | .gc keep maxEntries dryRun => match s.cache.gc keep maxEntries dryRun with
    | .error _ => s
    | .ok (receipt, c) => ⟨c, s.recorded.filter fun r => r.1 ∉ receipt.removed⟩

/-- Two different results have been recorded for the key. -/
def Contradicted (s : ValidationRun) (d : PyStr) : Prop :=
  ∃ x y, (d, x) ∈ s.recorded ∧ (d, y) ∈ s.recorded ∧ x ≠ y

/-- No get for reuse answers with the entry of a contradicted key. -/
def Sticky (s : ValidationRun) : Prop :=
  ∀ key d, keyDigest key = .ok d → s.Contradicted d → ∀ requireFresh requireVerified,
    s.cache.get key requireFresh requireVerified true = .ok none

/-- The call puts a verified and fresh result for a contradicted key, and the entry that is there has the
same result. -/
def Revives (s : ValidationRun) : Call → Prop
  | .put key a => (∃ r, s.cache.put key a = .ok r) ∧ a.verified = true ∧ a.fresh = true ∧
      ∃ d e, keyDigest key = .ok d ∧ s.Contradicted d ∧ s.cache.entries.get? d = some e ∧
        e.resultDigest = digestOf a.result
  | _ => False

/-! ## What the puts keep -/

variable {s : ValidationRun} {c c' : ValidationCache} {key : ValidationKey} {a : PutArgs} {d : PyStr}
  {e r : ValidationResult} {command : List PyStr}

/-- Every recorded key has an entry, and the result of every entry is recorded. -/
structure Consistent (s : ValidationRun) : Prop where
  entry : ∀ d x, (d, x) ∈ s.recorded → ∃ e, s.cache.entries.get? d = some e
  result : ∀ d e, s.cache.entries.get? d = some e → (d, e.resultDigest) ∈ s.recorded

theorem checked_eq_ok (h : checked r = .ok e) : e = r := by
  simp only [checked, bind_ok] at h
  obtain ⟨_, -, _, -, _, -, _, -, _, -, _, -, same⟩ := h
  exact (Except.ok.inj same).symm

/-- An entry that `put` makes holds the result; it is deterministic and as verified and fresh as the
request says, or it contradicts the entry that is there. -/
theorem newEntry_eq_ok (h : c.newEntry key d command a = .ok e) :
    e.keyDigest = d ∧ e.resultDigest = digestOf a.result ∧
      ((∀ previous, c.entries.get? d = some previous →
            previous.resultDigest = digestOf a.result) ∧
          e.verified = a.verified ∧ e.fresh = a.fresh ∧ e.nondeterministic = false ∨
        e.nondeterministic = true) := by
  have ofPlain (h : plain key d command a = .ok e) : e.keyDigest = d ∧
      e.resultDigest = digestOf a.result ∧ e.verified = a.verified ∧ e.fresh = a.fresh ∧
        e.nondeterministic = false := by
    simp only [plain, bind_ok] at h
    obtain ⟨_, -, same⟩ := h
    rw [checked_eq_ok same]
    exact ⟨rfl, rfl, rfl, rfl, rfl⟩
  unfold newEntry at h
  split at h
  · next absent =>
    obtain ⟨hKey, hResult, flags⟩ := ofPlain h
    refine ⟨hKey, hResult, .inl ⟨fun previous found => ?_, flags⟩⟩
    rw [absent] at found
    cases found
  · next previous found =>
    split at h
    · rw [checked_eq_ok h]
      exact ⟨rfl, rfl, .inr rfl⟩
    · next same =>
      obtain ⟨hKey, hResult, flags⟩ := ofPlain h
      refine ⟨hKey, hResult, .inl ⟨fun previous' found' => ?_, flags⟩⟩
      rw [found] at found'
      cases found'
      exact not_not.1 same

theorem put_eq_ok (h : c.put key a = .ok (e, c')) : ∃ d command, keyDigest key = .ok d ∧
    c.newEntry key d command a = .ok e ∧ c' = { c with entries := c.entries.set d e } := by
  simp only [put, bind_ok] at h
  obtain ⟨d, hd, command, -, _, -, _, -, entry, made, same⟩ := h
  cases same
  exact ⟨d, command, hd, made, rfl⟩

theorem get?_foldl_erase (removed : List PyStr) (entries : Dict PyStr ValidationResult) (d : PyStr) :
    (removed.foldl Dict.erase entries).get? d =
      if d ∈ removed then none else entries.get? d := by
  induction removed generalizing entries with
  | nil => simp
  | cons k removed ih =>
    rw [List.foldl_cons, ih, Dict.get?_erase]
    by_cases same : d = k
    · simp [same]
    · simp [same]

theorem step_put (h : s.cache.put key a = .ok (e, c)) : ∃ d command, keyDigest key = .ok d ∧
    s.cache.newEntry key d command a = .ok e ∧
      s.step (.put key a) = ⟨{ s.cache with entries := s.cache.entries.set d e },
        (d, digestOf a.result) :: s.recorded⟩ := by
  obtain ⟨d, command, hd, made, rfl⟩ := put_eq_ok h
  obtain ⟨hKey, hResult, -⟩ := newEntry_eq_ok made
  refine ⟨d, command, hd, made, ?_⟩
  rw [step, h]
  dsimp only
  rw [hKey, hResult]

theorem step_put_of_error {x : ValidationRaised} (h : s.cache.put key a = .error x) :
    s.step (.put key a) = s := by
  rw [step, h]

theorem step_of_not_put (call : Call) (other : ∀ key a, call ≠ .put key a) :
    ∃ removed : List PyStr, (∀ d, (s.step call).cache.entries.get? d =
        if d ∈ removed then none else s.cache.entries.get? d) ∧
      (s.step call).recorded = s.recorded.filter (fun r => r.1 ∉ removed) := by
  have nothing (t : ValidationRun) (entries : t.cache.entries = s.cache.entries)
      (recorded : t.recorded = s.recorded) : ∃ removed : List PyStr,
      (∀ d, t.cache.entries.get? d = if d ∈ removed then none else s.cache.entries.get? d) ∧
        t.recorded = s.recorded.filter (fun r => r.1 ∉ removed) :=
    ⟨[], by simp [entries], by simp [recorded]⟩
  cases call with
  | put key a => exact absurd rfl (other key a)
  | get key f v r => exact nothing s rfl rfl
  | acquireLease key leaseId =>
    rw [step]
    split
    · exact nothing s rfl rfl
    · next receipt c h =>
      simp only [acquireLease, bind_ok] at h
      obtain ⟨_, -, d, -, _, -, same⟩ := h
      cases same
      exact nothing _ rfl rfl
  | releaseLease key leaseId =>
    rw [step]
    split
    · exact nothing s rfl rfl
    · next receipt c h =>
      simp only [releaseLease, bind_ok] at h
      obtain ⟨_, -, d, -, same⟩ := h
      cases same
      exact nothing _ rfl rfl
  | gc keep maxEntries dryRun =>
    rw [step]
    split
    · exact nothing s rfl rfl
    · next receipt c h =>
      simp only [gc, bind_ok] at h
      obtain ⟨_, -, keep', -, same⟩ := h
      cases same
      exact ⟨_, get?_foldl_erase _ _, rfl⟩

theorem Consistent.step (h : s.Consistent) (call : Call) : (s.step call).Consistent := by
  by_cases isPut : ∃ key a, call = .put key a
  · obtain ⟨key, a, rfl⟩ := isPut
    cases hput : s.cache.put key a with
    | error x =>
      rw [step_put_of_error hput]
      exact h
    | ok r =>
      obtain ⟨d, command, -, made, stepped⟩ := step_put hput
      obtain ⟨-, hResult, -⟩ := newEntry_eq_ok made
      rw [stepped]
      refine ⟨fun d' x mem => ?_, fun d' e found => ?_⟩
      · simp only [Dict.get?_set]
        split_ifs with same
        · exact ⟨_, rfl⟩
        · rcases List.mem_cons.1 mem with new | old
          · exact absurd (congrArg Prod.fst new) same
          · exact h.entry d' x old
      · simp only [Dict.get?_set] at found
        split_ifs at found with same
        · cases found
          rw [same, hResult]
          exact List.mem_cons_self
        · exact List.mem_cons_of_mem _ (h.result d' e found)
  · obtain ⟨removed, entries, recorded⟩ :=
      step_of_not_put (s := s) call fun key a same => isPut ⟨key, a, same⟩
    refine ⟨fun d x mem => ?_, fun d e found => ?_⟩
    · rw [recorded, List.mem_filter, decide_eq_true_eq] at mem
      rw [entries, if_neg mem.2]
      exact h.entry d x mem.1
    · rw [entries] at found
      split_ifs at found with gone
      rw [recorded, List.mem_filter, decide_eq_true_eq]
      exact ⟨h.result d e found, gone⟩

/-! ## Contradicted keys -/

theorem get_reusable_iff (hd : keyDigest key = .ok d) : (∀ requireFresh requireVerified,
    c.get key requireFresh requireVerified true = .ok none) ↔ ∀ e, c.entries.get? d = some e →
      ¬ (e.verified = true ∧ e.fresh = true ∧ e.nondeterministic = false) := by
  have read (requireFresh requireVerified : Bool) :
      c.get key requireFresh requireVerified true = .ok none ↔
        (c.entries.get? d).filter (answers requireFresh requireVerified true) = none := by
    rw [ValidationCache.get, hd]
    exact ⟨Except.ok.inj, congrArg Except.ok⟩
  simp only [read, Option.filter_eq_none_iff, answers]
  constructor
  · rintro nothing e found ⟨verified, fresh, deterministic⟩
    exact nothing false false e found (by simp [verified, fresh, deterministic])
  · intro unusable f v e found answered
    refine unusable e found ?_
    have flags := (Bool.not_eq_true' _ ▸ answered :)
    simp only [Bool.or_eq_false_iff, Bool.and_eq_false_iff, Bool.not_eq_false'] at flags
    simpa [and_assoc] using flags.2

theorem Sticky.step_of_not_put (h : s.Sticky) (call : Call)
    (other : ∀ key a, call ≠ .put key a) : (s.step call).Sticky := by
  obtain ⟨removed, entries, recorded⟩ := ValidationRun.step_of_not_put (s := s) call other
  intro key d hd contradicted
  rw [get_reusable_iff hd]
  intro e found
  rw [entries] at found
  split_ifs at found
  obtain ⟨x, y, hx, hy, differ⟩ := contradicted
  rw [recorded] at hx hy
  exact (get_reusable_iff hd).1 (h key d hd
    ⟨x, y, List.mem_of_mem_filter hx, List.mem_of_mem_filter hy, differ⟩) e found

theorem sticky_put_iff (consistent : s.Consistent) (h : s.Sticky) (key : ValidationKey) (a : PutArgs) :
    (s.step (.put key a)).Sticky ↔ ¬ s.Revives (.put key a) := by
  cases hput : s.cache.put key a with
  | error x =>
    rw [step_put_of_error hput]
    refine iff_of_true h fun revives => ?_
    obtain ⟨⟨r, returned⟩, -⟩ := revives
    rw [hput] at returned
    cases returned
  | ok r =>
    obtain ⟨d, command, hd, made, stepped⟩ := step_put hput
    obtain ⟨-, hResult, kind⟩ := newEntry_eq_ok made
    rw [stepped]
    constructor
    · -- the entry that such a put makes is reusable, and its key stays contradicted
      rintro sticky ⟨-, verified, fresh, d', e, hd', ⟨x, y, hx, hy, differ⟩, found, same⟩
      rw [hd] at hd'
      cases hd'
      have reusable := (get_reusable_iff hd).1 (sticky key d hd ⟨x, y, List.mem_cons_of_mem _ hx,
        List.mem_cons_of_mem _ hy, differ⟩) r.1 (Dict.get?_set_self _ _ _)
      rcases kind with ⟨-, hVerified, hFresh, deterministic⟩ | nondeterministic
      · exact reusable ⟨hVerified.trans verified, hFresh.trans fresh, deterministic⟩
      · -- the entry that is there has the same result, so that there is no contradiction
        have made' := made
        rw [newEntry, found] at made'
        dsimp only at made'
        rw [if_neg (not_not.2 same), plain] at made'
        obtain ⟨_, -, made'⟩ := bind_ok.1 made'
        rw [checked_eq_ok made'] at nondeterministic
        cases nondeterministic
    · intro kept key' d' hd' contradicted
      rw [get_reusable_iff hd']
      obtain ⟨x, y, hx, hy, differ⟩ := contradicted
      intro e found
      rw [Dict.get?_set] at found
      split_ifs at found with same
      · cases found
        subst same
        rintro ⟨verified, fresh, deterministic⟩
        rcases kind with ⟨previous, hVerified, hFresh, -⟩ | nondeterministic
        · -- both recorded results were there before, unless no entry was
          have old (z : PyStr) (hz : (d', z) ∈ (d', digestOf a.result) :: s.recorded) :
              (d', z) ∈ s.recorded ∨ z = digestOf a.result := by
            rcases List.mem_cons.1 hz with new | old
            · exact .inr (congrArg Prod.snd new)
            · exact .inl old
          obtain ⟨z, hz⟩ : ∃ z, (d', z) ∈ s.recorded := by
            rcases old x hx with hx | rfl
            · exact ⟨x, hx⟩
            · rcases old y hy with hy | rfl
              · exact ⟨y, hy⟩
              · exact absurd rfl differ
          obtain ⟨entry, hentry⟩ := consistent.entry d' z hz
          have last := consistent.result d' entry hentry
          rw [previous entry hentry] at last
          have before (z : PyStr) (hz : (d', z) ∈ (d', digestOf a.result) :: s.recorded) :
              (d', z) ∈ s.recorded := by
            rcases old z hz with hz | rfl
            · exact hz
            · exact last
          exact kept ⟨⟨_, hput⟩, hVerified.symm.trans verified, hFresh.symm.trans fresh, d', entry, hd,
            ⟨x, y, before x hx, before y hy, differ⟩, hentry, previous entry hentry⟩
        · rw [nondeterministic] at deterministic
          cases deterministic
      · have other (z : PyStr) (hz : (d', z) ∈ (d, digestOf a.result) :: s.recorded) :
            (d', z) ∈ s.recorded := by
          rcases List.mem_cons.1 hz with new | old
          · exact absurd (congrArg Prod.fst new) same
          · exact old
        exact (get_reusable_iff hd').1 (h key' d' hd' ⟨x, y, other x hx, other y hy, differ⟩) e found

/-- In a run of a new cache no contradicted entry is reused in any state exactly when no put of the run
repeats the result of a contradicted key, verified and fresh. -/
theorem always_sticky_iff (calls : List Call) : Machine.Always step Sticky new calls ↔
    Machine.Along step (fun s call => ¬ s.Revives call) new calls := by
  refine Machine.always_iff_along_of_invariant (J := Consistent) ⟨?_, ?_⟩
    (fun _ call consistent => consistent.step call) ?_ fun s call consistent sticky => ?_
  · intro d x mem
    cases mem
  · intro d e found
    cases found
  · rintro key d - ⟨x, y, mem, -⟩
    cases mem
  · cases call with
    | put key a => exact sticky_put_iff consistent sticky key a
    | get key f v r => exact iff_of_true (sticky.step_of_not_put _ (by simp)) id
    | acquireLease key leaseId => exact iff_of_true (sticky.step_of_not_put _ (by simp)) id
    | releaseLease key leaseId => exact iff_of_true (sticky.step_of_not_put _ (by simp)) id
    | gc keep maxEntries dryRun => exact iff_of_true (sticky.step_of_not_put _ (by simp)) id

def sampleKey : ValidationKey :=
  { sourceMerkle := "m", lockfilesDigest := "l", toolchain := "t", command := ["c"] }

def samplePut (result : ℤ) : Call :=
  .put sampleKey { status := "pass", result := .int result, verified := true, provenance := ["p"] }

def sampleDigest : PyStr := ((keyDigest sampleKey).toOption).getD []

def sampleRun : ValidationRun := Machine.run step new [samplePut 1, samplePut 2, samplePut 2]

/-- After two results for one key, a put that repeats the second makes the entry reusable. -/
theorem not_always_sticky_repeated :
    ¬ Machine.Always step Sticky new [samplePut 1, samplePut 2, samplePut 2] := by
  intro always
  have sticky := always [_, _, _] [] rfl sampleKey sampleDigest rfl
  have facts : (((sampleDigest, digestOf (.int 1)) ∈ sampleRun.recorded ∧
      (sampleDigest, digestOf (.int 2)) ∈ sampleRun.recorded) ∧ digestOf (.int 1) ≠ digestOf (.int 2)) ∧
        ((sampleRun.cache.get sampleKey false false true).toOption.bind id).isSome = true := by
    decide +kernel
  obtain ⟨⟨⟨first, second⟩, differ⟩, answered⟩ := facts
  have nothing := sticky ⟨_, _, first, second, differ⟩ false false
  change sampleRun.cache.get sampleKey false false true = .ok none at nothing
  rw [nothing] at answered
  cases answered

end ValidationRun

end SimplicioFast
