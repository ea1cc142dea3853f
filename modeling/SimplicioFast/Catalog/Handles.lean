import SimplicioFast.Lib.Fields
import SimplicioFast.Lib.Machine
import SimplicioFast.Lib.Sha256

/-!
# Handles of the address catalog

A catalog issues a short handle for each identity that is registered with it: the first 20 digits of the SHA-256 digest
of a text that joins the scope of the catalog, which is its repository and its generation, and the identity.  The
separator of that text may occur in a repository and in a generation, so two scopes share their texts when one of them
moves a part of the repository to the generation (`Overlap`).  `scoped_iff` says that nothing else makes two catalogs
with different scopes share the bytes that they hash.
-/

namespace SimplicioFast

namespace Catalog

/-- The exceptions of this module. -/
inductive Raised
  | valueError (message : PyStr)
  | catalogResolutionError (reasonCode message : PyStr)
  | unicodeEncodeError
deriving DecidableEq

def SCHEMA : PyStr := "simplicio.fast.address-catalog/v1"

def STATES : List PyStr := (["active", "superseded", "tombstoned", "held"] : List PyStr)

def NAMESPACES : List PyStr :=
  (["file", "symbol", "relation", "span", "test", "plan", "precedent", "receipt", "skill"] : List PyStr)

/-- `hashlib.sha256(data).hexdigest()`. -/
def hexdigest (data : Bytes) : PyStr := PyStr.ofChars (Sha256.hexdigest data)

structure CatalogEntry where
  namespace_ : PyStr
  canonicalId : PyStr
  handle : PyStr
  repository : PyStr
  generation : PyStr
  segmentId : PyStr
  payload : Bytes
  payloadSha256 : PyStr
  sourceSha256 : PyStr
  state : PyStr
deriving DecidableEq

/-- The scope of a catalog: the resolved path of a repository, and a generation that is not empty. -/
structure Scope where
  repository : PyStr
  generation : PyStr
  named : generation ≠ []
deriving DecidableEq

structure AddressCatalog where
  scope : Scope
  byHandle : Dict PyStr CatalogEntry
  byIdentity : Dict (PyStr × PyStr) CatalogEntry
  collisions : ℕ

def AddressCatalog.new (scope : Scope) : AddressCatalog := ⟨scope, Dict.empty, Dict.empty, 0⟩

/-- The constructor of `AddressCatalog`, where `resolved` is `str(Path(path).resolve())`. -/
def AddressCatalog.make (resolved : PyStr → PyStr) (repository generation : PyStr) : Except Raised AddressCatalog :=
  if named : generation ≠ [] then .ok (.new ⟨resolved repository, generation, named⟩)
  else .error (.valueError "generation must not be empty")

/-- `"|".join((SCHEMA, repository, generation, namespace, canonical_id))`. -/
def Scope.material (s : Scope) (namespace_ canonicalId : PyStr) : PyStr :=
  List.intercalate "|" ([SCHEMA, s.repository, s.generation, namespace_, canonicalId] : List PyStr)

/-- The bytes from which a handle is derived; a lone surrogate has none. -/
def Scope.bytes (s : Scope) (namespace_ canonicalId : PyStr) : Option Bytes := (s.material namespace_ canonicalId).encode

/-- The handle that is derived from the bytes. -/
def handleOf (b : Bytes) : PyStr := (hexdigest b).take 20

/-- What `register` is called with. -/
structure Registration where
  namespace_ : PyStr
  canonicalId : PyStr
  payload : Bytes
  sourceSha256 : PyStr
  segmentId : PyStr := "default"
  state : PyStr := "active"

/-- What `resolve` is called with besides the handle; a repository is already resolved. -/
structure Guards where
  repository : Option PyStr := none
  generation : Option PyStr := none
  namespace_ : Option PyStr := none
  payloadSha256 : Option PyStr := none

/-- `raise e`, unless the condition holds. -/
def require (condition : Bool) (e : Raised) : Except Raised Unit := if condition then .ok () else .error e

def validateSha (value field : PyStr) : Except Raised Unit :=
  require value.isSha256 (.valueError (field ++ (" must be a lowercase SHA-256 digest" : PyStr)))

/-- The checks at the start of `register`. -/
def Registration.validate (r : Registration) : Except Raised Unit := do
  require (r.namespace_ ∈ NAMESPACES) (.valueError (("unsupported catalog namespace: " : PyStr) ++ r.namespace_))
  validateSha r.canonicalId "canonical_id"
  validateSha r.sourceSha256 "source_sha256"
  require (r.segmentId ≠ []) (.valueError "segment_id must not be empty")
  require (r.state ∈ STATES) (.valueError (("unsupported catalog state: " : PyStr) ++ r.state))

namespace AddressCatalog

def makeHandle (c : AddressCatalog) (namespace_ canonicalId : PyStr) : Except Raised PyStr :=
  match c.scope.bytes namespace_ canonicalId with
  | none => .error .unicodeEncodeError
  | some b => .ok (handleOf b)

/-- The entry that `register` makes. -/
def entryOf (c : AddressCatalog) (r : Registration) (handle : PyStr) : CatalogEntry :=
  { namespace_ := r.namespace_
    canonicalId := r.canonicalId
    handle := handle
    repository := c.scope.repository
    generation := c.scope.generation
    segmentId := r.segmentId
    payload := r.payload
    payloadSha256 := hexdigest r.payload
    sourceSha256 := r.sourceSha256
    state := r.state }

def store (c : AddressCatalog) (e : CatalogEntry) : AddressCatalog :=
  { c with byHandle := c.byHandle.set e.handle e, byIdentity := c.byIdentity.set (e.namespace_, e.canonicalId) e }

/-- `register` of an identity that is new, for its handle. -/
def issue (c : AddressCatalog) (r : Registration) (handle : PyStr) : AddressCatalog × Except Raised CatalogEntry :=
  if (c.byHandle.get? handle).any fun occupant => occupant.canonicalId ≠ r.canonicalId then
    ({ c with collisions := c.collisions + 1 },
      .error (.catalogResolutionError "handle_collision" (("handle collision for " : PyStr) ++ handle)))
  else (c.store (c.entryOf r handle), .ok (c.entryOf r handle))

def register (c : AddressCatalog) (r : Registration) : AddressCatalog × Except Raised CatalogEntry :=
  match r.validate with
  | .error e => (c, .error e)
  | .ok () => match c.byIdentity.get? (r.namespace_, r.canonicalId) with
    | some existing =>
      if existing.payloadSha256 ≠ hexdigest r.payload ∨ existing.sourceSha256 ≠ r.sourceSha256 then
        (c, .error (.catalogResolutionError "canonical_id_reuse"
          "canonical Mapper ID cannot silently point at a new payload"))
      else (c, .ok existing)
    | none => match c.makeHandle r.namespace_ r.canonicalId with
      | .error e => (c, .error e)
      | .ok handle => c.issue r handle

/-- The lookup of a handle in `resolve` and `tombstone`. -/
def lookup (c : AddressCatalog) (handle : PyStr) : Except Raised CatalogEntry :=
  match c.byHandle.get? handle with
  | none => .error (.catalogResolutionError "handle_not_found" (("unknown catalog handle: " : PyStr) ++ handle))
  | some e => .ok e

def resolve (c : AddressCatalog) (handle : PyStr) (g : Guards) : Except Raised CatalogEntry := do
  let e ← c.lookup handle
  require (g.repository.all (· = e.repository))
    (.catalogResolutionError "cross_repo_handle" "handle belongs to another repository")
  require (g.generation.all (· = e.generation))
    (.catalogResolutionError "stale_generation" "handle belongs to another generation")
  require (g.namespace_.all (· = e.namespace_))
    (.catalogResolutionError "namespace_mismatch" "handle namespace does not match")
  require (e.state = ("active" : PyStr))
    (.catalogResolutionError e.state (("handle is not active: " : PyStr) ++ e.state))
  require (g.payloadSha256.all (· = e.payloadSha256))
    (.catalogResolutionError "payload_digest_mismatch" "payload digest does not match")
  require (hexdigest e.payload = e.payloadSha256)
    (.catalogResolutionError "payload_corrupt" "catalog payload digest is invalid")
  return e

def tombstone (c : AddressCatalog) (handle state : PyStr) : AddressCatalog × Except Raised CatalogEntry :=
  if state ∉ (["superseded", "tombstoned", "held"] : List PyStr) then
    (c, .error (.valueError "tombstone state must be superseded, tombstoned or held"))
  else match c.lookup handle with
    | .error e => (c, .error e)
    | .ok e => (c.store { e with state := state }, .ok { e with state := state })

/-- A call that changes a catalog. -/
inductive Operation
  | register (r : Registration)
  | tombstone (handle state : PyStr)

/-- A call, with the entry that it returns. -/
def call (c : AddressCatalog) : Operation → AddressCatalog × Except Raised CatalogEntry
  | .register r => c.register r
  | .tombstone handle state => c.tombstone handle state

def step (c : AddressCatalog) (a : Operation) : AddressCatalog := (c.call a).1

end AddressCatalog

/-! ## Entries of a catalog -/

/-- An identity that can be registered. -/
def IsKey (namespace_ canonicalId : PyStr) : Prop := namespace_ ∈ NAMESPACES ∧ canonicalId.isSha256 = true

/-- The handle of the entry is derived from the scope and from an identity that can be registered. -/
def Derived (s : Scope) (e : CatalogEntry) : Prop :=
  IsKey e.namespace_ e.canonicalId ∧ ∃ b, s.bytes e.namespace_ e.canonicalId = some b ∧ handleOf b = e.handle

namespace AddressCatalog

/-- What every call keeps: all the entries are derived, and stand under their own handles. -/
structure Sealed (s : Scope) (c : AddressCatalog) : Prop where
  scope : c.scope = s
  handles : ∀ h e, c.byHandle.get? h = some e → Derived s e ∧ e.handle = h
  identities : ∀ k e, c.byIdentity.get? k = some e → Derived s e

variable {s s' : Scope} {c : AddressCatalog} {a : Operation} {r : Registration} {e : CatalogEntry} {h : PyStr}

theorem sealed_new (s : Scope) : Sealed s (new s) :=
  ⟨rfl, fun h e found => by simp [new] at found, fun k e found => by simp [new] at found⟩

theorem Sealed.store (kept : Sealed s c) (derived : Derived s e) : Sealed s (c.store e) := by
  refine ⟨kept.scope, fun h f found => ?_, fun k f found => ?_⟩
  · rw [AddressCatalog.store, Dict.get?_set] at found
    split at found
    · rename_i same
      cases found
      exact ⟨derived, same.symm⟩
    · exact kept.handles h f found
  · rw [AddressCatalog.store, Dict.get?_set] at found
    split at found
    · cases found
      exact derived
    · exact kept.identities k f found

theorem require_eq_ok_iff {condition : Bool} {e : Raised} {u : Unit} : require condition e = .ok u ↔ condition = true := by
  unfold require
  split <;> simp [*]

theorem isKey_of_validate (valid : r.validate = .ok ()) : IsKey r.namespace_ r.canonicalId := by
  obtain ⟨⟨⟩, known, valid⟩ := bind_ok.1 valid
  obtain ⟨⟨⟩, digest, -⟩ := bind_ok.1 valid
  exact ⟨of_decide_eq_true (require_eq_ok_iff.1 known), require_eq_ok_iff.1 digest⟩

theorem Sealed.register (kept : Sealed s c) (r : Registration) :
    Sealed s (c.register r).1 ∧ ∀ e, (c.register r).2 = .ok e → Derived s e := by
  unfold AddressCatalog.register
  split
  · exact ⟨kept, fun e returned => by cases returned⟩
  · rename_i valid
    have key := isKey_of_validate valid
    split
    · rename_i existing known
      split
      · exact ⟨kept, fun e returned => by cases returned⟩
      · refine ⟨kept, fun e returned => ?_⟩
        cases returned
        exact kept.identities _ _ known
    · split
      · exact ⟨kept, fun e returned => by cases returned⟩
      · rename_i handle made
        have derived : Derived s (c.entryOf r handle) := by
          refine ⟨key, ?_⟩
          unfold makeHandle at made
          split at made
          · cases made
          · rename_i b bytes
            cases made
            exact ⟨b, kept.scope ▸ bytes, rfl⟩
        unfold issue
        split
        · exact ⟨⟨kept.scope, kept.handles, kept.identities⟩, fun e returned => by cases returned⟩
        · refine ⟨kept.store derived, fun e returned => ?_⟩
          cases returned
          exact derived

theorem Sealed.tombstone (kept : Sealed s c) (handle state : PyStr) : Sealed s (c.tombstone handle state).1 := by
  unfold AddressCatalog.tombstone lookup
  split
  · exact kept
  · split
    · exact kept
    · rename_i e found
      split at found
      · cases found
      · rename_i f known
        cases found
        exact kept.store (kept.handles _ _ known).1

theorem Sealed.step (kept : Sealed s c) (a : Operation) : Sealed s (c.step a) := by
  cases a with
  | register r => exact (kept.register r).1
  | tombstone handle state => exact kept.tombstone handle state

theorem Sealed.run (kept : Sealed s c) (ops : List Operation) : Sealed s (Machine.run AddressCatalog.step c ops) := by
  induction ops generalizing c with
  | nil => exact kept
  | cons a ops ih => exact ih (kept.step a)

theorem Sealed.resolve {g : Guards} (kept : Sealed s c) (found : c.resolve h g = .ok e) : Derived s e ∧ e.handle = h := by
  obtain ⟨f, looked, found⟩ := bind_ok.1 found
  have known : Derived s f ∧ f.handle = h := by
    unfold lookup at looked
    split at looked
    · cases looked
    · rename_i known
      cases looked
      exact kept.handles _ _ known
  obtain ⟨-, -, found⟩ := bind_ok.1 found
  obtain ⟨-, -, found⟩ := bind_ok.1 found
  obtain ⟨-, -, found⟩ := bind_ok.1 found
  obtain ⟨-, -, found⟩ := bind_ok.1 found
  obtain ⟨-, -, found⟩ := bind_ok.1 found
  obtain ⟨-, -, found⟩ := bind_ok.1 found
  cases found
  exact known

end AddressCatalog

/-! ## Scopes -/

variable {s s' : Scope} {n n' i i' : PyStr}

/-- The generation of `s`, up to one of its separators, is the end of the repository of `s'`. -/
def Overlap (s s' : Scope) : Prop :=
  ∃ x : PyStr, s'.repository = s.repository ++ .scalar '|' :: x ∧ s.generation = x ++ .scalar '|' :: s'.generation

/-- No text of the scope has a lone surrogate. -/
def Encodable (s : Scope) : Prop := ∀ n, .surrogate n ∉ s.repository ∧ .surrogate n ∉ s.generation

/-- The handle was returned by a `register` in the run. -/
def Issued (s : Scope) (ops : List AddressCatalog.Operation) (h : PyStr) : Prop :=
  ∃ before r after e, ops = before ++ .register r :: after ∧
    ((Machine.run AddressCatalog.step (.new s) before).register r).2 = .ok e ∧ e.handle = h

/-- The handles of two scopes are apart: the bytes from which they are derived are different for all identities, and a
handle that a catalog of one issues and a catalog of the other resolves is a collision of the hash. -/
structure Apart (s s' : Scope) : Prop where
  bytes : ∀ n i n' i', IsKey n i → IsKey n' i' → ∀ b b', s.bytes n i = some b → s'.bytes n' i' = some b' → b ≠ b'
  handles : ∀ ops ops' h g e, Issued s ops h →
    (Machine.run AddressCatalog.step (.new s') ops').resolve h g = .ok e →
    ∃ n i b b', s.bytes n i = some b ∧ s'.bytes e.namespace_ e.canonicalId = some b' ∧ b ≠ b' ∧
      handleOf b = h ∧ handleOf b' = h

theorem material_eq (s : Scope) (n i : PyStr) :
    s.material n i = (SCHEMA ++ [.scalar '|']) ++ ((s.repository ++ .scalar '|' :: s.generation) ++
      .scalar '|' :: n ++ .scalar '|' :: i) := by
  simp [Scope.material, PyStr.ofChars]

theorem bar_notMem_namespace (known : n ∈ NAMESPACES) : .scalar '|' ∉ n := by
  revert n
  decide

theorem material_inj (key : IsKey n i) (key' : IsKey n' i') :
    s.material n i = s'.material n' i' ↔
      s.repository ++ .scalar '|' :: s.generation = s'.repository ++ .scalar '|' :: s'.generation ∧ n = n' ∧ i = i' := by
  constructor
  · intro same
    rw [material_eq, material_eq] at same
    have same := List.append_cancel_left same
    have lengths : (.scalar '|' :: i : PyStr).length = (.scalar '|' :: i' : PyStr).length := by
      have long := key.2
      have long' := key'.2
      simp only [PyStr.isSha256, Bool.and_eq_true, decide_eq_true_eq] at long long'
      simp [long.1, long'.1]
    obtain ⟨front, back⟩ := List.append_inj' same lengths
    have split := congrArg (PyStr.rsplit? [.scalar '|']) front
    have read (x n : PyStr) (known : n ∈ NAMESPACES) : PyStr.rsplit? [.scalar '|'] (x ++ .scalar '|' :: n) = some (x, n) :=
      PyStr.rsplit?_append List.not_mem_nil (bar_notMem_namespace known)
    rw [read _ _ key.1, read _ _ key'.1] at split
    obtain ⟨scope, names⟩ := Prod.mk.inj (Option.some.inj split)
    exact ⟨scope, names, (List.cons.inj back).2⟩
  · rintro ⟨scope, rfl, rfl⟩
    rw [material_eq, material_eq, scope]

theorem eq_or_overlap {x : PyStr} (front : s'.repository = s.repository ++ x)
    (back : .scalar '|' :: s.generation = x ++ .scalar '|' :: s'.generation) : s = s' ∨ Overlap s s' := by
  cases x with
  | nil =>
    left
    cases s
    cases s'
    rw [Scope.mk.injEq]
    exact ⟨(front.trans (List.append_nil _)).symm, (List.cons.inj back).2⟩
  | cons d x =>
    rw [List.cons_append, List.cons.injEq] at back
    obtain ⟨rfl, back⟩ := back
    exact .inr ⟨x, front, back⟩

theorem joined_eq_iff :
    s.repository ++ .scalar '|' :: s.generation = s'.repository ++ .scalar '|' :: s'.generation ↔
      s = s' ∨ Overlap s s' ∨ Overlap s' s := by
  constructor
  · intro same
    rcases List.append_eq_append_iff.1 same with ⟨x, front, back⟩ | ⟨x, front, back⟩
    · exact (eq_or_overlap front back).imp_right .inl
    · exact (eq_or_overlap front back).imp Eq.symm .inr
  · rintro (rfl | ⟨x, front, back⟩ | ⟨x, front, back⟩)
    · rfl
    · simp [front, back]
    · simp [front, back]

theorem isSome_bytes_iff (key : IsKey n i) : (s.bytes n i).isSome ↔ Encodable s := by
  have plain (m : PyStr) (known : m ∈ NAMESPACES) : ∀ k, .surrogate k ∉ m := by
    have all : NAMESPACES.all fun m => m.all fun c => decide (c.code < 0xD800) := by decide
    intro k mem
    exact absurd (of_decide_eq_true (List.all_eq_true.1 (List.all_eq_true.1 all m known) _ mem))
      (Nat.not_lt.2 (Nat.le_add_right 0xD800 k))
  have digits : ∀ k, .surrogate k ∉ i := by
    intro k mem
    have all := (Bool.and_eq_true_iff.1 key.2).2
    exact absurd (List.all_eq_true.1 all _ mem) Bool.false_ne_true
  have schema : ∀ k, .surrogate k ∉ SCHEMA := by
    have all : SCHEMA.all fun c => decide (c.code < 0xD800) := by decide
    intro k mem
    exact absurd (of_decide_eq_true (List.all_eq_true.1 all _ mem)) (Nat.not_lt.2 (Nat.le_add_right 0xD800 k))
  rw [Scope.bytes, PyStr.encode_isSome_iff, material_eq]
  refine forall_congr' fun k => ?_
  simp [schema k, digits k, plain n key.1 k]

theorem apart_of_bytes
    (bytes : ∀ n i n' i', IsKey n i → IsKey n' i' → ∀ b b', s.bytes n i = some b → s'.bytes n' i' = some b' → b ≠ b') :
    Apart s s' := by
  refine ⟨bytes, fun ops ops' h g e issued resolved => ?_⟩
  obtain ⟨before, r, after, f, -, returned, rfl⟩ := issued
  have first := (((AddressCatalog.sealed_new s).run before).register r).2 f returned
  obtain ⟨second, same⟩ := ((AddressCatalog.sealed_new s').run ops').resolve resolved
  obtain ⟨key, b, has, made⟩ := first
  obtain ⟨key', b', has', made'⟩ := second
  exact ⟨f.namespace_, f.canonicalId, b, b', has, has', bytes _ _ _ _ key key' b b' has has', made, made'.trans same⟩

/-- The handles of two different scopes are apart, unless the scopes overlap and can be encoded. -/
theorem apart_iff (different : s ≠ s') : Apart s s' ↔ ¬ ((Overlap s s' ∨ Overlap s' s) ∧ Encodable s) := by
  constructor
  · rintro apart ⟨overlap, encodable⟩
    have key : IsKey "file" (List.replicate 64 (.scalar 'a')) := by
      constructor <;> decide
    obtain ⟨b, has⟩ := Option.isSome_iff_exists.1 ((isSome_bytes_iff key).2 encodable)
    have same : s.bytes "file" (List.replicate 64 (.scalar 'a')) = s'.bytes "file" (List.replicate 64 (.scalar 'a')) :=
      congrArg PyStr.encode ((material_inj key key).2 ⟨joined_eq_iff.2 (.inr overlap), rfl, rfl⟩)
    exact apart.bytes _ _ _ _ key key b b has (same ▸ has) rfl
  · intro clear
    refine apart_of_bytes fun n i n' i' key key' b b' has has' same => clear ?_
    subst same
    have joined := ((material_inj key key').1 (PyStr.encode_injective has has')).1
    refine ⟨(joined_eq_iff.1 joined).resolve_left different, (isSome_bytes_iff key).1 ?_⟩
    rw [has]
    rfl

/-- Two generations of one repository. -/
theorem apart_iff_generations :
    Apart ⟨"/repo", "1", by decide⟩ ⟨"/repo", "2", by decide⟩ := by
  refine (apart_iff (by decide)).2 ?_
  rintro ⟨⟨x, front, -⟩ | ⟨x, front, -⟩, -⟩ <;> simp at front

/-- A repository and a generation that share a separator. -/
theorem not_apart_shifted :
    (⟨"/a|b", "c", by decide⟩ : Scope) ≠ ⟨"/a", "b|c", by decide⟩ ∧
      ¬ Apart ⟨"/a|b", "c", by decide⟩ ⟨"/a", "b|c", by decide⟩ := by
  refine ⟨by decide, fun apart => ?_⟩
  have key : IsKey "file" (List.replicate 64 (.scalar 'a')) := by
    constructor <;> decide
  exact apart.bytes "file" (List.replicate 64 (.scalar 'a')) "file" (List.replicate 64 (.scalar 'a')) key key _ _ rfl rfl
    (by decide)

end Catalog

end SimplicioFast
