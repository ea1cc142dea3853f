import SimplicioFast.CrossRepo.Lock
import SimplicioFast.Lib.Literals

/-!
# Locks that are accepted

An accepted lock is unambiguous when it binds every repository to one commit, keeps the runtime out of the standalone
profile, and has one receipt for all orders of its entries.  The checks of duplicates and of the profile look at the
members that are not optional, so this is the case exactly when the optional ones do no harm either
(`unambiguous_iff`).
-/

namespace SimplicioFast

namespace CrossRepo

/-- The values of two fields are the same, or lists of the same items up to their order and up to related items. -/
def PermutedField (R : Json → Json → Prop) (v v' : Option Json) : Prop :=
  v = v' ∨ ∃ vs vs', v = some (.arr vs) ∧ v' = some (.arr vs') ∧ PermUpTo R vs vs'

/-- The same contract, but for the order of its consumers. -/
def SameContract (c c' : Json) : Prop :=
  c = c' ∨ ∃ fs fs', c = .obj fs ∧ c' = .obj fs' ∧ (∀ k, k ≠ "consumers" → Dict.find fs' k = Dict.find fs k) ∧
    PermutedField Eq (Dict.find fs "consumers") (Dict.find fs' "consumers")

/-- The same lock, but for the order of its members, contracts, consumers, routes and required contracts. -/
structure Permuted (fs fs' : List (PyStr × Json)) : Prop where
  schema : Dict.find fs' "schema" = Dict.find fs "schema"
  profile : Dict.find fs' "profile" = Dict.find fs "profile"
  members : PermutedField Eq (Dict.find fs "members") (Dict.find fs' "members")
  contracts : PermutedField SameContract (Dict.find fs "contracts") (Dict.find fs' "contracts")
  routes : PermutedField Eq (Dict.find fs "routes") (Dict.find fs' "routes")
  required : PermutedField Eq (Dict.find fs "required_contracts") (Dict.find fs' "required_contracts")

/-- What a receipt promises about the lock. -/
structure Unambiguous (fs : List (PyStr × Json)) (profile : Option PyStr) (lock : CanonicalLock) (digest : PyStr) :
    Prop where
  commits : ∀ m ∈ lock.members, ∀ n ∈ lock.members, m.repository = n.repository → m.commit = n.commit
  contracts : ∀ c ∈ lock.contracts, ∀ r ∈ c.participants, ∃ m ∈ lock.members, m.repository = r
  routes : ∀ r ∈ lock.routes, (∃ m ∈ lock.members, m.repository = r.source) ∧ ∃ m ∈ lock.members, m.repository = r.target
  standalone : lock.profile = STANDALONE → (∀ m ∈ lock.members, m.repository ≠ RUNTIME_REPOSITORY) ∧
    ∀ r ∈ lock.routes, r.source ≠ RUNTIME_REPOSITORY ∧ r.target ≠ RUNTIME_REPOSITORY
  canonical : ∀ fs', Permuted fs fs' → validateStackLock (.obj fs') profile = .ok (lock, digest)

/-- The entries of `members`. -/
def memberValues (fs : List (PyStr × Json)) : List Json :=
  match Dict.find fs "members" with
  | some (.arr vs) => vs
  | _ => []

/-- The entries of one repository say the same, and a standalone lock has none for the runtime. -/
structure Orderly (fs : List (PyStr × Json)) : Prop where
  same : ∀ v ∈ memberValues fs, ∀ w ∈ memberValues fs, ∀ m n, LockedMember.fromDict 0 v = .ok m →
    LockedMember.fromDict 0 w = .ok n → m.repository = n.repository → m = n
  standalone : Dict.find fs "profile" = some (.str STANDALONE) → ∀ v ∈ memberValues fs, ∀ m,
    LockedMember.fromDict 0 v = .ok m → m.repository ≠ RUNTIME_REPOSITORY

variable {value value' : Option Json} {reason reason' path path' : PyStr} {fs fs' : List (PyStr × Json)}

/-! ## Results do not depend on paths -/

theorem require_eq_ok_iff {condition : Bool} {u : Unit} : require condition reason path = .ok u ↔ condition = true := by
  unfold require
  split_ifs with holds
  · exact iff_of_true rfl holds
  · exact iff_of_false nofun holds

theorem sameOk_require {condition condition' : Bool} (same : condition = condition') :
    Except.SameOk (require condition reason path) (require condition' reason' path') := by
  intro u
  rw [require_eq_ok_iff, require_eq_ok_iff, same]

theorem sameOk_text : Except.SameOk (text value reason path) (text value reason' path') := by
  unfold text
  split
  · split_ifs
    · exact Except.sameOk_error _ _
    · exact .refl _
  · exact Except.sameOk_error _ _

theorem sameOk_sha40 : Except.SameOk (sha40 value reason path) (sha40 value reason' path') :=
  sameOk_text.bind fun _ => (sameOk_require rfl).bind fun _ => .refl _

theorem sameOk_sha64 : Except.SameOk (sha64 value reason path) (sha64 value reason' path') :=
  sameOk_text.bind fun _ => (sameOk_require rfl).bind fun _ => .refl _

theorem sameOk_repository : Except.SameOk (repository value path) (repository value path') :=
  sameOk_text.bind fun _ => (sameOk_require rfl).bind fun _ => .refl _

theorem list_eq_ok_iff {maximum : ℕ} {vs : List Json} :
    list value reason path maximum = .ok vs ↔ value = some (.arr vs) ∧ vs.length ≤ maximum := by
  unfold list
  split
  · rename_i ws
    split_ifs with short
    · constructor
      · intro same
        cases same
        exact ⟨rfl, short⟩
      · rintro ⟨same, -⟩
        cases same
        rfl
    · refine iff_of_false nofun ?_
      rintro ⟨same, bound⟩
      cases same
      exact short bound
  · rename_i other
    refine iff_of_false nofun ?_
    rintro ⟨same, -⟩
    exact other vs same

theorem sameOk_list {maximum : ℕ} : Except.SameOk (list value reason path maximum) (list value reason' path' maximum) := by
  intro vs
  rw [list_eq_ok_iff, list_eq_ok_iff]

theorem PermutedField.list {R : Json → Json → Prop} {maximum : ℕ} {vs : List Json} (refl : ∀ v, R v v)
    (permuted : PermutedField R value value') (h : list value reason path maximum = .ok vs) :
    ∃ vs', PermUpTo R vs vs' ∧ list value' reason path maximum = .ok vs' := by
  obtain ⟨rfl, bound⟩ := list_eq_ok_iff.1 h
  rcases permuted with rfl | ⟨ws, vs', same, rfl, related⟩
  · exact ⟨vs, ⟨vs, .refl vs, List.forall₂_same.2 fun v _ => refl v⟩, h⟩
  · cases same
    exact ⟨vs', related, list_eq_ok_iff.2 ⟨rfl, related.length ▸ bound⟩⟩

theorem sameOk_fields (v : Json) : Except.SameOk (fields v reason path) (fields v reason' path') := by
  unfold fields
  split
  · exact .refl _
  · exact Except.sameOk_error _ _

theorem sameOk_member (n : ℕ) (v : Json) : Except.SameOk (LockedMember.fromDict n v) (LockedMember.fromDict 0 v) := by
  unfold LockedMember.fromDict
  refine (sameOk_fields v).bind fun fs => sameOk_repository.bind fun _ => sameOk_sha40.bind fun _ =>
    sameOk_text.bind fun _ => Except.SameOk.bind ?_ fun _ => Except.SameOk.bind ?_ fun _ => .refl _
  · unfold LockedMember.artifact
    split
    · exact .refl _
    · exact .refl _
    · exact sameOk_sha64.map _
  · unfold LockedMember.flag
    split
    · exact .refl _
    · exact .refl _
    · exact Except.sameOk_error _ _

theorem sameOk_route {repositories repositories' : List PyStr} (same : ∀ r, r ∈ repositories ↔ r ∈ repositories')
    (n m : ℕ) (v : Json) : Except.SameOk (Route.fromDict repositories n v) (Route.fromDict repositories' m v) := by
  unfold Route.fromDict
  refine (sameOk_fields v).bind fun fs => sameOk_repository.bind fun source => sameOk_repository.bind fun target =>
    sameOk_text.bind fun _ => sameOk_text.bind fun _ => (sameOk_require ?_).bind fun _ =>
      (sameOk_require rfl).bind fun _ => .refl _
  simp only [same]

theorem consumers_eq_ok_iff (path : ℕ → PyStr) {values : List Json} {consumers : List PyStr} :
    enumerateM (fun i item => repository (some item) (path i)) 0 values = .ok consumers ↔
      List.Forall₂ (fun item r => repository (some item) [] = .ok r) values consumers := by
  have indep (n : ℕ) (item : Json) : Except.SameOk (repository (some item) (path n)) (repository (some item) (path 0)) :=
    sameOk_repository
  have same (item : Json) : Except.SameOk (repository (some item) (path 0)) (repository (some item) []) :=
    sameOk_repository
  refine (enumerateM_eq_ok_iff indep).trans ⟨fun all => all.imp fun item r => (same item r).1, fun all => ?_⟩
  exact all.imp fun item r => (same item r).2

theorem sameOk_consumers {values values' : List Json} (perm : PermUpTo Eq values values') (path path' : ℕ → PyStr)
    {consumers : List PyStr}
    (h : enumerateM (fun i item => repository (some item) (path i)) 0 values = .ok consumers) :
    ∃ consumers', enumerateM (fun i item => repository (some item) (path' i)) 0 values' = .ok consumers' ∧
      PyStr.sortedSet consumers' = PyStr.sortedSet consumers ∧ (consumers' = [] ↔ consumers = []) := by
  obtain ⟨consumers', order, h'⟩ :=
    exists_perm_enumerateM (f := fun i item => repository (some item) (path i))
      (g := fun i item => repository (some item) (path' i)) (m := 0) perm (fun _ _ => sameOk_repository)
      (fun _ _ => sameOk_repository) (by rintro item _ rfl r read; exact (sameOk_repository r).1 read) h
  refine ⟨consumers', h', ?_, ?_⟩
  · exact (sortedSet_of_perm order).symm
  · rw [← List.length_eq_zero_iff, ← List.length_eq_zero_iff, order.length_eq]

theorem contract_eq_ok_iff {n : ℕ} {c : Json} {contract : LockedContract} :
    LockedContract.fromDict n c = .ok contract ↔ ∃ fs, c = .obj fs ∧
      text (Dict.find fs "schema") [] [] = .ok contract.schema ∧
      repository (Dict.find fs "owner") [] = .ok contract.owner ∧
      repository (Dict.find fs "producer") [] = .ok contract.producer ∧
      (∃ values consumers, list (Dict.find fs "consumers") [] [] maxMembers = .ok values ∧
        enumerateM (fun _ item => repository (some item) []) 0 values = .ok consumers ∧ consumers ≠ [] ∧
          PyStr.sortedSet consumers = contract.consumers) ∧
      ∃ digest, sha64 (Dict.find fs "digest") [] [] = .ok digest ∧ ("sha256:" : PyStr) ++ digest = contract.digest := by
  unfold LockedContract.fromDict
  constructor
  · intro h
    obtain ⟨fs, object, h⟩ := bind_ok.1 h
    obtain ⟨schema, readSchema, h⟩ := bind_ok.1 h
    obtain ⟨owner, readOwner, h⟩ := bind_ok.1 h
    obtain ⟨producer, readProducer, h⟩ := bind_ok.1 h
    obtain ⟨values, readValues, h⟩ := bind_ok.1 h
    obtain ⟨consumers, readConsumers, h⟩ := bind_ok.1 h
    obtain ⟨_, some_, h⟩ := bind_ok.1 h
    obtain ⟨digest, readDigest, h⟩ := bind_ok.1 h
    cases h
    obtain rfl : c = .obj fs := by
      unfold fields at object
      split at object
      · exact congrArg Json.obj (Except.ok.inj object)
      · cases object
    rw [require_eq_ok_iff, decide_eq_true_eq] at some_
    exact ⟨fs, rfl, (sameOk_text _).1 readSchema, (sameOk_repository _).1 readOwner,
      (sameOk_repository _).1 readProducer, ⟨values, consumers, (sameOk_list _).1 readValues,
        (consumers_eq_ok_iff _).2 ((consumers_eq_ok_iff _).1 readConsumers), some_, rfl⟩,
      digest, (sameOk_sha64 _).1 readDigest, rfl⟩
  · rintro ⟨fs, rfl, readSchema, readOwner, readProducer, ⟨values, consumers, readValues, readConsumers, some_, sorted⟩,
      digest, readDigest, prefixed⟩
    refine bind_ok.2 ⟨fs, rfl, ?_⟩
    refine bind_ok.2 ⟨_, (sameOk_text _).1 readSchema, ?_⟩
    refine bind_ok.2 ⟨_, (sameOk_repository _).1 readOwner, ?_⟩
    refine bind_ok.2 ⟨_, (sameOk_repository _).1 readProducer, ?_⟩
    refine bind_ok.2 ⟨values, (sameOk_list _).1 readValues, ?_⟩
    refine bind_ok.2 ⟨consumers,
      (consumers_eq_ok_iff _).2 ((consumers_eq_ok_iff fun _ => []).1 readConsumers), ?_⟩
    refine bind_ok.2 ⟨(), require_eq_ok_iff.2 (decide_eq_true some_), ?_⟩
    refine bind_ok.2 ⟨digest, (sameOk_sha64 _).1 readDigest, ?_⟩
    rw [sorted, prefixed]
    rfl

theorem fromDict_of_sameContract {n m : ℕ} {c c' : Json} (same : SameContract c c') {contract : LockedContract}
    (h : LockedContract.fromDict n c = .ok contract) : LockedContract.fromDict m c' = .ok contract := by
  obtain ⟨fs, rfl, readSchema, readOwner, readProducer, ⟨values, consumers, readValues, readConsumers, some_, sorted⟩,
    digest, readDigest, prefixed⟩ := contract_eq_ok_iff.1 h
  rcases same with rfl | ⟨fs, fs', same, rfl, others, permuted⟩
  · exact contract_eq_ok_iff.2 ⟨fs, rfl, readSchema, readOwner, readProducer,
      ⟨values, consumers, readValues, readConsumers, some_, sorted⟩, digest, readDigest, prefixed⟩
  · cases same
    obtain ⟨values', perm, readValues'⟩ := permuted.list (fun _ => rfl) readValues
    obtain ⟨consumers', readConsumers', sorted', empty⟩ := sameOk_consumers perm _ (fun _ => []) readConsumers
    refine contract_eq_ok_iff.2 ⟨fs', rfl, ?_, ?_, ?_, ⟨values', consumers', readValues', readConsumers',
      fun none => some_ (empty.1 none), sorted'.trans sorted⟩, digest, ?_, prefixed⟩
    · rw [others _ (by decide)]
      exact readSchema
    · rw [others _ (by decide)]
      exact readOwner
    · rw [others _ (by decide)]
      exact readProducer
    · rw [others _ (by decide)]
      exact readDigest

/-! ## The parts of a permuted lock -/

variable {profile : PyStr} {repositories repositories' : List PyStr}

theorem checkRequired_congr (perm : repositories.Perm repositories') :
    checkRequired profile repositories = checkRequired profile repositories' := by
  have same : ∀ r, (r ∈ repositories) = (r ∈ repositories') := fun r => propext perm.mem_iff
  have nodup : repositories.Nodup = repositories'.Nodup := propext perm.nodup_iff
  unfold checkRequired
  simp only [same, nodup]

theorem validateMembers_eq_ok_iff {members : List LockedMember} :
    validateMembers value profile = .ok members ↔ ∃ vs, list value "members_invalid" "members" maxMembers = .ok vs ∧
      vs ≠ [] ∧ enumerateM LockedMember.fromDict 0 vs = .ok members ∧
        checkRequired profile ((members.filter fun m => !m.optional).map LockedMember.repository) = .ok () := by
  unfold validateMembers
  constructor
  · intro h
    obtain ⟨vs, listed, h⟩ := bind_ok.1 h
    obtain ⟨_, some_, h⟩ := bind_ok.1 h
    obtain ⟨ms, read, h⟩ := bind_ok.1 h
    obtain ⟨_, required, h⟩ := bind_ok.1 h
    cases h
    exact ⟨vs, listed, of_decide_eq_true (require_eq_ok_iff.1 some_), read, required⟩
  · rintro ⟨vs, listed, some_, read, required⟩
    refine bind_ok.2 ⟨vs, listed, ?_⟩
    refine bind_ok.2 ⟨(), require_eq_ok_iff.2 (decide_eq_true some_), ?_⟩
    exact bind_ok.2 ⟨members, read, bind_ok.2 ⟨(), required, rfl⟩⟩

theorem validateMembers_perm {members : List LockedMember} (permuted : PermutedField Eq value value')
    (h : validateMembers value profile = .ok members) :
    ∃ members', members.Perm members' ∧ validateMembers value' profile = .ok members' := by
  obtain ⟨vs, listed, some_, read, required⟩ := validateMembers_eq_ok_iff.1 h
  obtain ⟨vs', perm, listed'⟩ := permuted.list (fun _ => rfl) listed
  obtain ⟨members', order, read'⟩ :=
    exists_perm_enumerateM (m := 0) perm sameOk_member sameOk_member (fun _ _ same _ read => same ▸ read) read
  refine ⟨members', order, validateMembers_eq_ok_iff.2 ⟨vs', listed', ?_, read', ?_⟩⟩
  · rintro rfl
    exact some_ (List.eq_nil_of_length_eq_zero perm.length)
  · rw [← checkRequired_congr ((order.filter _).map LockedMember.repository)]
    exact required

theorem participants_eq_ok_iff {n : ℕ} {contracts : List LockedContract} :
    (∃ us, enumerateM (fun i c => require (LockedContract.participants c |>.all (· ∈ repositories))
      "contract_member_missing" (at_ "contracts" i)) n contracts = .ok us) ↔
        ∀ c ∈ contracts, ∀ r ∈ c.participants, r ∈ repositories := by
  have indep (n : ℕ) (c : LockedContract) :
      Except.SameOk (require (c.participants.all (· ∈ repositories)) "contract_member_missing" (at_ "contracts" n))
        (require (c.participants.all (· ∈ repositories)) "contract_member_missing" (at_ "contracts" 0)) :=
    sameOk_require rfl
  constructor
  · rintro ⟨us, read⟩ c mem r inside
    have all := (enumerateM_eq_ok_iff indep).1 read
    clear read
    induction all with
    | nil => cases mem
    | cons first _ ih =>
      rcases List.mem_cons.1 mem with rfl | mem
      · exact of_decide_eq_true (List.all_eq_true.1 (require_eq_ok_iff.1 first) r inside)
      · exact ih mem
  · intro inside
    refine ⟨contracts.map fun _ => (), (enumerateM_eq_ok_iff indep).2 ?_⟩
    rw [List.forall₂_map_right_iff, List.forall₂_same]
    intro c mem
    exact require_eq_ok_iff.2 (List.all_eq_true.2 fun r among => decide_eq_true (inside c mem r among))

theorem validateContracts_eq_ok_iff {contracts : List LockedContract} :
    validateContracts value repositories = .ok contracts ↔
      ∃ vs, list value "contracts_invalid" "contracts" maxContracts = .ok vs ∧
        enumerateM LockedContract.fromDict 0 vs = .ok contracts ∧ (contracts.map LockedContract.schema).Nodup ∧
          ∀ c ∈ contracts, ∀ r ∈ c.participants, r ∈ repositories := by
  unfold validateContracts
  constructor
  · intro h
    obtain ⟨vs, listed, h⟩ := bind_ok.1 h
    obtain ⟨cs, read, h⟩ := bind_ok.1 h
    obtain ⟨_, nodup, h⟩ := bind_ok.1 h
    obtain ⟨us, inside, h⟩ := bind_ok.1 h
    cases h
    exact ⟨vs, listed, read, of_decide_eq_true (require_eq_ok_iff.1 nodup), participants_eq_ok_iff.1 ⟨us, inside⟩⟩
  · rintro ⟨vs, listed, read, nodup, inside⟩
    obtain ⟨us, checked⟩ := participants_eq_ok_iff.2 inside
    refine bind_ok.2 ⟨vs, listed, bind_ok.2 ⟨contracts, read, ?_⟩⟩
    refine bind_ok.2 ⟨(), require_eq_ok_iff.2 (decide_eq_true nodup), ?_⟩
    exact bind_ok.2 ⟨us, checked, rfl⟩

theorem validateContracts_perm {contracts : List LockedContract} (permuted : PermutedField SameContract value value')
    (same : ∀ r, r ∈ repositories → r ∈ repositories') (h : validateContracts value repositories = .ok contracts) :
    ∃ contracts', contracts.Perm contracts' ∧ validateContracts value' repositories' = .ok contracts' := by
  obtain ⟨vs, listed, read, nodup, inside⟩ := validateContracts_eq_ok_iff.1 h
  obtain ⟨vs', perm, listed'⟩ := permuted.list (fun _ => .inl rfl) listed
  have indep (n : ℕ) (c : Json) : Except.SameOk (LockedContract.fromDict n c) (LockedContract.fromDict 0 c) :=
    fun _ => ⟨fromDict_of_sameContract (.inl rfl), fromDict_of_sameContract (.inl rfl)⟩
  obtain ⟨contracts', order, read'⟩ :=
    exists_perm_enumerateM (m := 0) perm indep indep (fun _ _ same _ => fromDict_of_sameContract same) read
  refine ⟨contracts', order, validateContracts_eq_ok_iff.2 ⟨vs', listed', read', ?_, fun c mem r among => ?_⟩⟩
  · exact (order.map _).nodup_iff.1 nodup
  · exact same r (inside c (order.mem_iff.2 mem) r among)

theorem validateRoutes_eq_ok_iff {routes : List Route} :
    validateRoutes value repositories = .ok routes ↔
      ∃ vs normalized, list value "routes_invalid" "routes" maxRoutes = .ok vs ∧
        enumerateM (Route.fromDict repositories) 0 vs = .ok normalized ∧ normalized.Nodup ∧
          normalized.insertionSort (fun r s => r.values ≤ s.values) = routes := by
  unfold validateRoutes
  constructor
  · intro h
    obtain ⟨vs, listed, h⟩ := bind_ok.1 h
    obtain ⟨normalized, read, h⟩ := bind_ok.1 h
    obtain ⟨_, nodup, h⟩ := bind_ok.1 h
    exact ⟨vs, normalized, listed, read, of_decide_eq_true (require_eq_ok_iff.1 nodup), Except.ok.inj h⟩
  · rintro ⟨vs, normalized, listed, read, nodup, sorted⟩
    refine bind_ok.2 ⟨vs, listed, bind_ok.2 ⟨normalized, read, ?_⟩⟩
    exact bind_ok.2 ⟨(), require_eq_ok_iff.2 (decide_eq_true nodup), congrArg _ sorted⟩

theorem Route.values_injective : Function.Injective Route.values := by
  rintro ⟨source, target, kind, authority⟩ ⟨source', target', kind', authority'⟩ same
  simp only [Route.values, List.cons.injEq, and_true] at same
  obtain ⟨rfl, rfl, rfl, rfl⟩ := same
  rfl

theorem validateRoutes_perm {routes : List Route} (permuted : PermutedField Eq value value')
    (same : ∀ r, r ∈ repositories ↔ r ∈ repositories') (h : validateRoutes value repositories = .ok routes) :
    validateRoutes value' repositories' = .ok routes := by
  obtain ⟨vs, normalized, listed, read, nodup, sorted⟩ := validateRoutes_eq_ok_iff.1 h
  obtain ⟨vs', perm, listed'⟩ := permuted.list (fun _ => rfl) listed
  have agree : ∀ v v', v = v' → ∀ r, Route.fromDict repositories 0 v = .ok r →
      Route.fromDict repositories' 0 v' = .ok r := by
    rintro v _ rfl r
    exact (sameOk_route same 0 0 v r).1
  obtain ⟨normalized', order, read'⟩ := exists_perm_enumerateM (m := 0) perm
    (fun n => sameOk_route (fun _ => Iff.rfl) n 0) (fun n => sameOk_route (fun _ => Iff.rfl) n 0) agree read
  refine validateRoutes_eq_ok_iff.2 ⟨vs', normalized', listed', read', order.nodup_iff.1 nodup, ?_⟩
  rw [← sorted]
  exact (insertionSort_eq_of_perm order fun _ _ _ _ equal => Route.values_injective equal).symm

theorem validateRequired_eq_ok_iff {available required : List PyStr} :
    validateRequired value available = .ok required ↔
      ∃ vs, list value "required_contracts_invalid" "required_contracts" maxContracts = .ok vs ∧
        enumerateM (fun i item => text (some item) "required_contract_invalid" (at_ "required_contracts" i)) 0 vs =
          .ok required ∧ ∀ r ∈ required, r ∈ available := by
  have missing (required : List PyStr) : PyStr.sortedSet (required.filter (· ∉ available)) = [] ↔
      ∀ r ∈ required, r ∈ available := by
    rw [List.eq_nil_iff_forall_not_mem]
    simp only [PyStr.mem_sortedSet, List.mem_filter, decide_eq_true_eq, not_and, not_not]
  unfold validateRequired
  constructor
  · intro h
    obtain ⟨vs, listed, h⟩ := bind_ok.1 h
    obtain ⟨rs, read, h⟩ := bind_ok.1 h
    obtain ⟨_, none, h⟩ := bind_ok.1 h
    cases h
    exact ⟨vs, listed, read, (missing _).1 (of_decide_eq_true (require_eq_ok_iff.1 none))⟩
  · rintro ⟨vs, listed, read, inside⟩
    refine bind_ok.2 ⟨vs, listed, bind_ok.2 ⟨required, read, ?_⟩⟩
    exact bind_ok.2 ⟨(), require_eq_ok_iff.2 (decide_eq_true ((missing _).2 inside)), rfl⟩

theorem validateRequired_perm {available available' required : List PyStr} (permuted : PermutedField Eq value value')
    (same : ∀ r, r ∈ available → r ∈ available') (h : validateRequired value available = .ok required) :
    ∃ required', required.Perm required' ∧ validateRequired value' available' = .ok required' := by
  obtain ⟨vs, listed, read, inside⟩ := validateRequired_eq_ok_iff.1 h
  obtain ⟨vs', perm, listed'⟩ := permuted.list (fun _ => rfl) listed
  let reader (i : ℕ) (item : Json) := text (some item) "required_contract_invalid" (at_ "required_contracts" i)
  obtain ⟨required', order, read'⟩ := exists_perm_enumerateM (f := reader) (g := reader) (m := 0) perm
    (fun _ _ => sameOk_text) (fun _ _ => sameOk_text) (fun _ _ related _ read => related ▸ read) read
  exact ⟨required', order, validateRequired_eq_ok_iff.2 ⟨vs', listed', read',
    fun r mem => same r (inside r (order.mem_iff.2 mem))⟩⟩

/-! ## Canonical locks -/

/-- What is read of a lock. -/
structure Reads (fs : List (PyStr × Json)) (expected : Option PyStr) (profile : PyStr) (members : List LockedMember)
    (contracts : List LockedContract) (routes : List Route) (required : List PyStr) : Prop where
  readSchema : ((Dict.find fs "schema").getD .null).pyEq (.str STACK_LOCK_SCHEMA) = true
  readProfile : validateProfile (Dict.find fs "profile") expected = .ok profile
  readMembers : validateMembers (Dict.find fs "members") profile = .ok members
  readContracts : validateContracts (Dict.find fs "contracts") (members.map LockedMember.repository) = .ok contracts
  readRoutes : validateRoutes (Dict.find fs "routes") (members.map LockedMember.repository) = .ok routes
  readRequired : validateRequired (Dict.find fs "required_contracts") (contracts.map LockedContract.schema) = .ok required

def sortedLock (profile : PyStr) (members : List LockedMember) (contracts : List LockedContract) (routes : List Route)
    (required : List PyStr) : CanonicalLock where
  profile := profile
  members := members.insertionSort fun m n => m.repository ≤ n.repository
  contracts := contracts.insertionSort fun c d => c.schema ≤ d.schema
  routes := routes
  requiredContracts := PyStr.sortedSet required

variable {expected : Option PyStr} {members members' : List LockedMember} {contracts contracts' : List LockedContract}
  {routes : List Route} {required required' : List PyStr} {lock : CanonicalLock} {digest : PyStr}

theorem validateStackLock_eq_ok_iff :
    validateStackLock (.obj fs) expected = .ok (lock, digest) ↔
      ∃ profile members contracts routes required, Reads fs expected profile members contracts routes required ∧
        sortedLock profile members contracts routes required = lock ∧ lock.digest = .ok digest := by
  unfold validateStackLock canonicalLock
  constructor
  · intro h
    obtain ⟨fs', object, h⟩ := bind_ok.1 h
    cases object
    obtain ⟨canonical, h, digested⟩ := bind_ok.1 h
    obtain ⟨digest', computed, same⟩ := bind_ok.1 digested
    cases same
    obtain ⟨_, schema, h⟩ := bind_ok.1 h
    obtain ⟨profile, readProfile, h⟩ := bind_ok.1 h
    obtain ⟨members, readMembers, h⟩ := bind_ok.1 h
    obtain ⟨contracts, readContracts, h⟩ := bind_ok.1 h
    obtain ⟨routes, readRoutes, h⟩ := bind_ok.1 h
    obtain ⟨required, readRequired, h⟩ := bind_ok.1 h
    exact ⟨profile, members, contracts, routes, required,
      ⟨require_eq_ok_iff.1 schema, readProfile, readMembers, readContracts, readRoutes, readRequired⟩,
      Except.ok.inj h, computed⟩
  · rintro ⟨profile, members, contracts, routes, required, reads, rfl, computed⟩
    refine bind_ok.2 ⟨fs, rfl, ?_⟩
    refine bind_ok.2 ⟨_, ?_, bind_ok.2 ⟨digest, computed, rfl⟩⟩
    refine bind_ok.2 ⟨(), require_eq_ok_iff.2 reads.readSchema, ?_⟩
    refine bind_ok.2 ⟨profile, reads.readProfile, ?_⟩
    refine bind_ok.2 ⟨members, reads.readMembers, ?_⟩
    refine bind_ok.2 ⟨contracts, reads.readContracts, ?_⟩
    refine bind_ok.2 ⟨routes, reads.readRoutes, ?_⟩
    exact bind_ok.2 ⟨required, reads.readRequired, rfl⟩

theorem Reads.permuted (reads : Reads fs expected profile members contracts routes required)
    (same : Permuted fs fs') :
    ∃ members' contracts' required', members.Perm members' ∧ contracts.Perm contracts' ∧ required.Perm required' ∧
      Reads fs' expected profile members' contracts' routes required' := by
  obtain ⟨members', orderM, readMembers⟩ := validateMembers_perm same.members reads.readMembers
  have bound : ∀ r, r ∈ members.map LockedMember.repository ↔ r ∈ members'.map LockedMember.repository := fun r =>
    (orderM.map _).mem_iff
  obtain ⟨contracts', orderC, readContracts⟩ :=
    validateContracts_perm same.contracts (fun r => (bound r).1) reads.readContracts
  have available : ∀ r, r ∈ contracts.map LockedContract.schema → r ∈ contracts'.map LockedContract.schema := fun r =>
    (orderC.map _).mem_iff.1
  obtain ⟨required', orderR, readRequired⟩ := validateRequired_perm same.required available reads.readRequired
  refine ⟨members', contracts', required', orderM, orderC, orderR, ?_, ?_, readMembers, readContracts, ?_,
    readRequired⟩
  · rw [same.schema]
    exact reads.readSchema
  · rw [same.profile]
    exact reads.readProfile
  · exact validateRoutes_perm same.routes bound reads.readRoutes

theorem sortedLock_of_perm (profile : PyStr) (routes : List Route) (orderM : members.Perm members')
    (orderC : contracts.Perm contracts') (orderR : required.Perm required') (apart : (contracts.map LockedContract.schema).Nodup)
    (same : ∀ m ∈ members, ∀ n ∈ members, m.repository = n.repository → m = n) :
    sortedLock profile members contracts routes required = sortedLock profile members' contracts' routes required' := by
  have sortedM := insertionSort_eq_of_perm orderM same
  have sortedC := insertionSort_eq_of_perm orderC fun c mem d mem' => List.inj_on_of_nodup_map apart mem mem'
  unfold sortedLock
  rw [sortedM, sortedC, sortedSet_of_perm orderR]

/-! ## Members -/

theorem Reads.mem_members_iff (reads : Reads fs expected profile members contracts routes required)
    {m : LockedMember} : m ∈ members ↔ ∃ v ∈ memberValues fs, LockedMember.fromDict 0 v = .ok m := by
  obtain ⟨vs, listed, -, read, -⟩ := validateMembers_eq_ok_iff.1 reads.readMembers
  have values : memberValues fs = vs := by
    unfold memberValues
    rw [(list_eq_ok_iff.1 listed).1]
  rw [values]
  exact mem_enumerateM_iff sameOk_member read

theorem text_eq_ok_iff {s : PyStr} : text value reason path = .ok s ↔ value = some (.str s) ∧ s.strip ≠ [] := by
  unfold text
  split
  · rename_i t
    split_ifs with blank
    · refine iff_of_false nofun ?_
      rintro ⟨same, some_⟩
      cases same
      exact some_ blank
    · constructor
      · intro same
        cases same
        exact ⟨rfl, blank⟩
      · rintro ⟨same, -⟩
        cases same
        rfl
  · rename_i other
    refine iff_of_false nofun ?_
    rintro ⟨same, -⟩
    exact other s same

theorem Reads.profile_eq (reads : Reads fs expected profile members contracts routes required) :
    Dict.find fs "profile" = some (.str profile) := by
  have h := reads.readProfile
  unfold validateProfile at h
  obtain ⟨named, read, h⟩ := bind_ok.1 h
  obtain ⟨_, _, h⟩ := bind_ok.1 h
  obtain ⟨_, _, h⟩ := bind_ok.1 h
  cases h
  exact (text_eq_ok_iff.1 read).1

theorem Reads.orderly_iff (reads : Reads fs expected profile members contracts routes required) :
    Orderly fs ↔ (∀ m ∈ members, ∀ n ∈ members, m.repository = n.repository → m = n) ∧
      (profile = STANDALONE → ∀ m ∈ members, m.repository ≠ RUNTIME_REPOSITORY) := by
  have named : Dict.find fs "profile" = some (.str STANDALONE) ↔ profile = STANDALONE := by
    rw [reads.profile_eq, Option.some.injEq, Json.str.injEq]
  constructor
  · intro orderly
    constructor
    · intro m mem n mem' same
      obtain ⟨v, among, returned⟩ := reads.mem_members_iff.1 mem
      obtain ⟨w, among', returned'⟩ := reads.mem_members_iff.1 mem'
      exact orderly.same v among w among' m n returned returned' same
    · intro standalone m mem
      obtain ⟨v, among, returned⟩ := reads.mem_members_iff.1 mem
      exact orderly.standalone (named.2 standalone) v among m returned
  · rintro ⟨same, standalone⟩
    constructor
    · intro v among w among' m n returned returned'
      exact same m (reads.mem_members_iff.2 ⟨v, among, returned⟩) n (reads.mem_members_iff.2 ⟨w, among', returned'⟩)
    · intro profiled v among m returned
      exact standalone (named.1 profiled) m (reads.mem_members_iff.2 ⟨v, among, returned⟩)

theorem mem_of_route {n : ℕ} {v : Json} {r : Route} (h : Route.fromDict repositories n v = .ok r) :
    r.source ∈ repositories ∧ r.target ∈ repositories := by
  unfold Route.fromDict at h
  obtain ⟨fs, _, h⟩ := bind_ok.1 h
  obtain ⟨source, _, h⟩ := bind_ok.1 h
  obtain ⟨target, _, h⟩ := bind_ok.1 h
  obtain ⟨kind, _, h⟩ := bind_ok.1 h
  obtain ⟨authority, _, h⟩ := bind_ok.1 h
  obtain ⟨_, bound, h⟩ := bind_ok.1 h
  obtain ⟨_, _, h⟩ := bind_ok.1 h
  cases h
  have both := require_eq_ok_iff.1 bound
  rw [Bool.and_eq_true, decide_eq_true_eq, decide_eq_true_eq] at both
  exact both

theorem Reads.mem_of_mem_routes (reads : Reads fs expected profile members contracts routes required) {r : Route}
    (mem : r ∈ routes) :
    r.source ∈ members.map LockedMember.repository ∧ r.target ∈ members.map LockedMember.repository := by
  obtain ⟨vs, normalized, -, read, -, rfl⟩ := validateRoutes_eq_ok_iff.1 reads.readRoutes
  have indep (n : ℕ) := sameOk_route (fun r => Iff.refl (r ∈ members.map LockedMember.repository)) n 0
  obtain ⟨v, -, returned⟩ := (mem_enumerateM_iff indep read).1 ((List.mem_insertionSort _).1 mem)
  exact mem_of_route returned

theorem exists_member_iff {r : PyStr} :
    (∃ m ∈ (sortedLock profile members contracts routes required).members, m.repository = r) ↔
      r ∈ members.map LockedMember.repository := by
  rw [List.mem_map]
  exact exists_congr fun m => and_congr_left' (List.mem_insertionSort _)

/-! ## Accepted locks -/

theorem Orderly.unambiguous (orderly : Orderly fs) (accepted : validateStackLock (.obj fs) expected = .ok (lock, digest)) :
    Unambiguous fs expected lock digest := by
  obtain ⟨profile, members, contracts, routes, required, reads, rfl, computed⟩ :=
    validateStackLock_eq_ok_iff.1 accepted
  obtain ⟨same, standalone⟩ := reads.orderly_iff.1 orderly
  have apart := (validateContracts_eq_ok_iff.1 reads.readContracts).choose_spec.2.2
  constructor
  · intro m mem n mem' equal
    exact congrArg LockedMember.commit (same m ((List.mem_insertionSort _).1 mem) n ((List.mem_insertionSort _).1 mem') equal)
  · intro c mem r among
    exact exists_member_iff.2 (apart.2 c ((List.mem_insertionSort _).1 mem) r among)
  · intro r mem
    obtain ⟨source, target⟩ := reads.mem_of_mem_routes mem
    exact ⟨exists_member_iff.2 source, exists_member_iff.2 target⟩
  · intro profiled
    have absent : RUNTIME_REPOSITORY ∉ members.map LockedMember.repository := by
      intro mem
      obtain ⟨m, bound, runtime⟩ := List.mem_map.1 mem
      exact standalone profiled m bound runtime
    constructor
    · intro m mem runtime
      exact absent (List.mem_map.2 ⟨m, (List.mem_insertionSort _).1 mem, runtime⟩)
    · intro r mem
      obtain ⟨source, target⟩ := reads.mem_of_mem_routes mem
      exact ⟨fun runtime => absent (runtime ▸ source), fun runtime => absent (runtime ▸ target)⟩
  · intro fs' permuted
    obtain ⟨members', contracts', required', orderM, orderC, orderR, reads'⟩ := reads.permuted permuted
    have sorted := sortedLock_of_perm profile routes orderM orderC orderR apart.1 same
    exact validateStackLock_eq_ok_iff.2 ⟨profile, members', contracts', routes, required', reads', sorted.symm, computed⟩

/-- The lock with its member entries in another order. -/
def withMembers (fs : List (PyStr × Json)) (vs : List Json) : List (PyStr × Json) :=
  Dict.setEntries "members" (.arr vs) fs

theorem permuted_withMembers {vs vs' : List Json} (listed : Dict.find fs "members" = some (.arr vs))
    (perm : vs.Perm vs') : Permuted fs (withMembers fs vs') := by
  have found (k : PyStr) : Dict.find (withMembers fs vs') k =
      if k = "members" then some (.arr vs') else Dict.find fs k := Dict.lookup_setEntries _ _ _ _
  constructor
  · rw [found, if_neg (by decide)]
  · rw [found, if_neg (by decide)]
  · rw [found, if_pos rfl]
    exact .inr ⟨vs, vs', listed, rfl, permUpTo_of_perm perm⟩
  · rw [found, if_neg (by decide)]
    exact .inl rfl
  · rw [found, if_neg (by decide)]
    exact .inl rfl
  · rw [found, if_neg (by decide)]
    exact .inl rfl

theorem Unambiguous.head_eq (unambiguous : Unambiguous fs expected lock digest) {vs : List Json}
    (listed : Dict.find fs "members" = some (.arr vs)) {v : Json} (mem : v ∈ vs) {m : LockedMember}
    (read : LockedMember.fromDict 0 v = .ok m) :
    (lock.members.filter fun n => n.repository = m.repository).head? = some m := by
  obtain ⟨before, after, rfl⟩ := List.append_of_mem mem
  have perm : (before ++ v :: after).Perm (v :: (before ++ after)) := List.perm_middle
  have accepted := unambiguous.canonical _ (permuted_withMembers listed perm)
  obtain ⟨profile, members, contracts, routes, required, reads, rfl, -⟩ := validateStackLock_eq_ok_iff.1 accepted
  obtain ⟨vs', listed', -, returned, -⟩ := validateMembers_eq_ok_iff.1 reads.readMembers
  have first : Dict.find (withMembers fs (v :: (before ++ after))) "members" = some (.arr (v :: (before ++ after))) :=
    (Dict.lookup_setEntries _ _ _ _).trans (if_pos rfl)
  obtain rfl : v :: (before ++ after) = vs' := by
    have same := first.symm.trans (list_eq_ok_iff.1 listed').1
    cases same
    rfl
  cases (enumerateM_eq_ok_iff sameOk_member).1 returned with
  | @cons _ _ _ others head _ =>
    cases read.symm.trans head
    have kept := @filter_insertionSort _ _ _ LockedMember.repository m.repository _ (m :: others)
    rw [List.filter_cons, if_pos (decide_eq_true rfl)] at kept
    exact congrArg List.head? kept

/-- An accepted lock is unambiguous exactly when it is orderly. -/
theorem unambiguous_iff (accepted : validateStackLock (.obj fs) expected = .ok (lock, digest)) :
    Unambiguous fs expected lock digest ↔ Orderly fs := by
  refine ⟨fun unambiguous => ?_, fun orderly => orderly.unambiguous accepted⟩
  obtain ⟨profile, members, contracts, routes, required, reads, rfl, computed⟩ :=
    validateStackLock_eq_ok_iff.1 accepted
  obtain ⟨vs, listed, -, read, -⟩ := validateMembers_eq_ok_iff.1 reads.readMembers
  have among {m : LockedMember} (mem : m ∈ members) := (mem_enumerateM_iff sameOk_member read).1 mem
  refine reads.orderly_iff.2 ⟨fun m mem n mem' same => ?_, fun profiled m mem => ?_⟩
  · obtain ⟨v, inside, returned⟩ := among mem
    obtain ⟨w, inside', returned'⟩ := among mem'
    have head := unambiguous.head_eq (list_eq_ok_iff.1 listed).1 inside returned
    have head' := unambiguous.head_eq (list_eq_ok_iff.1 listed).1 inside' returned'
    rw [same] at head
    exact Option.some.inj (head.symm.trans head')
  · exact (unambiguous.standalone profiled).1 m ((List.mem_insertionSort _).2 mem)

/-! ## Two locks -/

/-- An entry for the member `repository`. -/
def pinned (repository commit : PyStr) (optional : Bool) : Json :=
  .obj [("repository", .str repository), ("commit", .str commit), ("version", .str "1.0.0"),
    ("optional", .bool optional)]

def commitOf (digit : Char) : PyStr := List.replicate 40 (.scalar digit)

/-- A standalone lock of the required members and the given ones. -/
def standaloneLock (others : List Json) : List (PyStr × Json) :=
  [("schema", .str STACK_LOCK_SCHEMA), ("profile", .str STANDALONE),
    ("members", .arr (BASE_REQUIRED_REPOSITORIES.map (pinned · (commitOf '0') false) ++ others)),
    ("contracts", .arr []), ("routes", .arr []), ("required_contracts", .arr [])]

/-- Two optional entries for the agent, at two commits, and one for the runtime. -/
def strayMembers : List Json :=
  [pinned "wesleysimplicio/simplicio-agent" (commitOf '1') true, pinned "wesleysimplicio/simplicio-agent" (commitOf '2') true,
    pinned RUNTIME_REPOSITORY (commitOf '0') true]

/-- The members of the lock with the given entries. -/
def standaloneMembers (others : List Json) : List LockedMember :=
  (enumerateM LockedMember.fromDict 0
    (BASE_REQUIRED_REPOSITORIES.map (pinned · (commitOf '0') false) ++ others)).toOption.getD []

example : (standaloneMembers []).map (·.repository) = BASE_REQUIRED_REPOSITORIES := by decide +kernel

theorem exists_digest (lock : CanonicalLock) (short : (Json.dumps true (.obj (("schema", .str STACK_LOCK_SCHEMA) ::
    ("profile", .str lock.profile) :: lock.parts))).length ≤ maxBytes) : ∃ digest, lock.digest = .ok digest := by
  unfold CanonicalLock.digest
  exact ⟨_, bind_ok.2 ⟨(), require_eq_ok_iff.2 (decide_eq_true short), rfl⟩⟩

theorem reads_standaloneLock_nil : Reads (standaloneLock []) none STANDALONE (standaloneMembers []) [] [] [] := by
  unfold standaloneMembers standaloneLock pinned BASE_REQUIRED_REPOSITORIES STANDALONE STACK_LOCK_SCHEMA
  constructor <;> simp (disch := decide +kernel) only [validateMembers, validateProfile, validateContracts, validateRoutes,
    validateRequired, STACK_LOCK_SCHEMA, Literals.toList_eq_asciiChars, List.map_cons, List.map_nil] <;> decide +kernel

theorem reads_standaloneLock_strayMembers :
    Reads (standaloneLock strayMembers) none STANDALONE (standaloneMembers strayMembers) [] [] [] := by
  unfold standaloneMembers standaloneLock strayMembers pinned BASE_REQUIRED_REPOSITORIES RUNTIME_REPOSITORY STANDALONE
    STACK_LOCK_SCHEMA
  constructor <;> simp (disch := decide +kernel) only [validateMembers, validateProfile, validateContracts, validateRoutes,
    validateRequired, STACK_LOCK_SCHEMA, Literals.toList_eq_asciiChars, List.map_cons, List.map_nil] <;> decide +kernel

/-- The lock of the required members is unambiguous. -/
theorem unambiguous_standaloneLock : ∃ lock digest, validateStackLock (.obj (standaloneLock [])) none = .ok (lock, digest) ∧
    Unambiguous (standaloneLock []) none lock digest := by
  have reads := reads_standaloneLock_nil
  obtain ⟨digest, computed⟩ := exists_digest (sortedLock STANDALONE (standaloneMembers []) [] [] []) (by
    unfold CanonicalLock.parts sortedLock standaloneMembers pinned BASE_REQUIRED_REPOSITORIES STANDALONE
    simp (disch := decide +kernel) only [Literals.toList_eq_asciiChars]
    decide +kernel)
  have accepted := validateStackLock_eq_ok_iff.2 ⟨_, _, _, _, _, reads, rfl, computed⟩
  exact ⟨_, digest, accepted, (unambiguous_iff accepted).2 (reads.orderly_iff.2 (by
    unfold standaloneMembers pinned BASE_REQUIRED_REPOSITORIES STANDALONE RUNTIME_REPOSITORY
    simp (disch := decide +kernel) only [Literals.toList_eq_asciiChars]
    decide +kernel))⟩

/-- A lock with stray optional members is accepted. -/
theorem not_unambiguous_strayMembers :
    ¬ ∀ fs profile lock digest, validateStackLock (.obj fs) profile = .ok (lock, digest) →
      Unambiguous fs profile lock digest := by
  intro all
  obtain ⟨digest, computed⟩ := exists_digest (sortedLock STANDALONE (standaloneMembers strayMembers) [] [] []) (by
    unfold CanonicalLock.parts sortedLock standaloneMembers strayMembers pinned BASE_REQUIRED_REPOSITORIES STANDALONE
      RUNTIME_REPOSITORY
    simp (disch := decide +kernel) only [Literals.toList_eq_asciiChars]
    decide +kernel)
  have accepted := validateStackLock_eq_ok_iff.2 ⟨_, _, _, _, _, reads_standaloneLock_strayMembers, rfl, computed⟩
  have unambiguous := all _ _ _ _ accepted
  have commits := unambiguous.commits
  revert commits
  unfold sortedLock standaloneMembers strayMembers pinned BASE_REQUIRED_REPOSITORIES STANDALONE RUNTIME_REPOSITORY
  simp (disch := decide +kernel) only [Literals.toList_eq_asciiChars]
  decide +kernel

end CrossRepo

end SimplicioFast
