import SimplicioFast.Lib.Lines
import SimplicioFast.Lib.Machine
import SimplicioFast.Snapshot.Read

/-!
# Searching a snapshot

`find_exact` and `search` look up the positions of symbols in the indexes of a snapshot of version 2, and read the
symbols there.

`str.casefold` is a parameter.  `typeError` stands for `AttributeError` too.
-/

namespace SimplicioFast

/-- The methods of an open snapshot, of any version, that its context is made of. -/
structure SnapshotMethods where
  files : Except SnapshotRaised (List (PyStr × Bytes))
  symbols : Except SnapshotRaised (List Symbol)
  find : PyStr → Except SnapshotRaised (List Symbol)
  provenance : Json

namespace SnapshotFormat

variable (casefold : PyStr → PyStr) (s : OpenSnapshot)

/-- `_indexes`. -/
def indexData : Except SnapshotRaised Json := loadsBytes (regionBytes s.map s.sections.indexes)

/-- `data[key]`. -/
def subscript (data : Json) (key : PyStr) : Except SnapshotRaised Json :=
  match data.get? key with
  | some v => .ok v
  | none => .error .keyError

/-- `index.items()`. -/
def indexItems : Json → Except SnapshotRaised (List (PyStr × Json))
  | .obj fields => .ok fields
  | _ => .error .typeError

/-- A position of a symbol, as `_symbol_at` takes it. -/
def positionOf : Json → Except SnapshotRaised ℕ
  | .int n => if 0 ≤ n then .ok n.toNat else .error .structError
  | .bool b => .ok b.toNat
  | _ => .error .typeError

/-- The positions of an entry of an index. -/
def positionsOf : Json → Except SnapshotRaised (List ℕ)
  | .arr values => values.mapM positionOf
  | _ => .error .typeError

/-- `index.get(key, [])`. -/
def positionsAt (index : Json) (key : PyStr) : Except SnapshotRaised (List ℕ) := do
  let fields ← indexItems index
  match Dict.find fields key with
  | some values => positionsOf values
  | none => return []

/-- The positions under the keys of an index that satisfy a test. -/
def hits (index : Json) (test : PyStr → Bool) : Except SnapshotRaised (List ℕ) := do
  let fields ← indexItems index
  let found ← (fields.filter fun f => test f.1).mapM fun f => positionsOf f.2
  return found.flatten

/-- `sorted(set(positions))`. -/
def sortedPositions (positions : List ℕ) : List ℕ := positions.dedup.insertionSort (· ≤ ·)

/-- The positions that an index has under a key too, when a key is given. -/
def narrow (data : Json) (name : PyStr) (key : Option PyStr) (candidates : List ℕ) :
    Except SnapshotRaised (List ℕ) :=
  match key with
  | none => .ok candidates
  | some key => do
    let index ← subscript data name
    let allowed ← positionsAt index key
    return sortedPositions (candidates.filter (· ∈ allowed))

/-- The positions of the symbols whose name or qualified name contains the needle, or whose name begins with it. -/
def candidates (data : Json) (needle : PyStr) (byPrefix : Bool) : Except SnapshotRaised (List ℕ) := do
  let names ← subscript data "names"
  if byPrefix then hits names needle.isPrefixOf
  else do
    let inNames ← hits names needle.contains
    let exact_ ← subscript data "exact"
    let inExact ← hits exact_ needle.contains
    return inNames ++ inExact

def findExact (query : PyStr) : Except SnapshotRaised (List Symbol) := do
  let data ← indexData s
  let index ← subscript data "exact"
  let found ← files s
  let positions ← positionsAt index (casefold query)
  positions.mapM (symbolAt s (found.map Prod.fst))

def search (query : PyStr) (byPrefix : Bool := false) (path kind : Option PyStr := none) :
    Except SnapshotRaised (List Symbol) := do
  let data ← indexData s
  let positions ← candidates data (casefold query) byPrefix
  let positions ← narrow data "paths" path positions
  let positions ← narrow data "kinds" kind positions
  let found ← files s
  let symbols ← (sortedPositions positions).mapM (symbolAt s (found.map Prod.fst))
  return symbols.insertionSort fun a b => symbolLe casefold a b = true

/-- The methods of a snapshot of version 2; `find` is a `search`. -/
def methods : SnapshotMethods where
  files := files s
  symbols := symbols s
  find query := search casefold s query
  provenance := s.provenance

/-! ## Consistent indexes -/

/-- An index lists the symbols by a key. -/
def IndexLists (index : Option Json) (key : Symbol → PyStr) (all : List Symbol) : Prop :=
  ∃ fields, index = some (.obj fields) ∧ (∀ f ∈ fields, ∃ l, positionsOf f.2 = .ok l) ∧
    ∀ (i : ℕ) k, (∃ f ∈ fields, f.1 = k ∧ ∃ l, positionsOf f.2 = .ok l ∧ i ∈ l) ↔
      ∃ symbol, all[i]? = some symbol ∧ key symbol = k

/-- The snapshot has the symbols, and its indexes list them by their casefolded names and qualified names. -/
structure Consistent (casefold : PyStr → PyStr) (s : OpenSnapshot) (all : List Symbol) : Prop where
  symbols : symbols s = .ok all
  indexes : ∃ data, indexData s = .ok data ∧ IndexLists (data.get? "names") (fun a => casefold a.name) all ∧
    IndexLists (data.get? "exact") (fun a => casefold a.qualifiedName) all

section Consistent

variable {s : OpenSnapshot} {all : List Symbol} {positions : List ℕ}

theorem exists_mapM_ok {α : Type} {g : α → Except SnapshotRaised (List ℕ)} {l : List α}
    (h : ∀ a ∈ l, ∃ m, g a = .ok m) :
    ∃ ms, l.mapM g = .ok ms ∧ ∀ i, i ∈ ms.flatten ↔ ∃ a ∈ l, ∃ m, g a = .ok m ∧ i ∈ m := by
  induction l with
  | nil => exact ⟨[], rfl, fun i => by simp⟩
  | cons a l ih =>
    obtain ⟨⟨m, first⟩, rest⟩ := List.forall_mem_cons.1 h
    obtain ⟨ms, rest, mem⟩ := ih rest
    refine ⟨m :: ms, ?_, fun i => ?_⟩
    · rw [List.mapM_cons, first, rest]
      rfl
    · rw [List.flatten_cons, List.mem_append, mem, List.exists_mem_cons_iff]
      refine or_congr ⟨fun here => ⟨m, first, here⟩, ?_⟩ Iff.rfl
      rintro ⟨m', same, here⟩
      cases first.symm.trans same
      exact here

theorem hits_eq {index : Option Json} {key : Symbol → PyStr} (lists : IndexLists index key all) (test : PyStr → Bool) :
    ∃ v l, index = some v ∧ hits v test = .ok l ∧ ∀ i, i ∈ l ↔ ∃ symbol, all[i]? = some symbol ∧ test (key symbol) := by
  obtain ⟨fields, rfl, valid, entries⟩ := lists
  obtain ⟨ms, ran, mem⟩ := exists_mapM_ok (g := fun f : PyStr × Json => positionsOf f.2)
    (l := fields.filter fun f => test f.1) fun f mem => valid f (List.mem_of_mem_filter mem)
  refine ⟨_, ms.flatten, rfl, ?_, fun i => ?_⟩
  · exact bind_ok.2 ⟨fields, rfl, bind_ok.2 ⟨ms, ran, rfl⟩⟩
  · rw [mem]
    constructor
    · rintro ⟨f, mem, l, same, here⟩
      obtain ⟨mem, holds⟩ := List.mem_filter.1 mem
      obtain ⟨symbol, place, k⟩ := (entries i f.1).1 ⟨f, mem, rfl, l, same, here⟩
      exact ⟨symbol, place, k ▸ holds⟩
    · rintro ⟨symbol, place, holds⟩
      obtain ⟨f, mem, k, l, same, here⟩ := (entries i (key symbol)).2 ⟨symbol, place, rfl⟩
      exact ⟨f, List.mem_filter.2 ⟨mem, k ▸ holds⟩, l, same, here⟩

theorem pairwise_sortedPositions (positions : List ℕ) : (sortedPositions positions).Pairwise (· < ·) := by
  have sorted : (sortedPositions positions).Pairwise (· ≤ ·) := List.pairwise_insertionSort _ _
  have nodup : (sortedPositions positions).Nodup :=
    (List.perm_insertionSort _ _).nodup_iff.2 (List.nodup_dedup positions)
  exact (sorted.and nodup).imp fun h => lt_of_le_of_ne h.1 h.2

theorem mem_sortedPositions {i : ℕ} : i ∈ sortedPositions positions ↔ i ∈ positions := by
  rw [sortedPositions, List.mem_insertionSort, List.mem_dedup]

theorem forall₂_filter {p : Symbol → Bool} (increasing : positions.Pairwise (· < ·))
    (mem : ∀ i, i ∈ positions ↔ ∃ symbol, all[i]? = some symbol ∧ p symbol) :
    List.Forall₂ (fun i symbol => all[i]? = some symbol) positions (all.filter p) := by
  let hit := all.zipIdx.filter fun a => p a.1
  have places : positions = hit.map Prod.snd := by
    have sorted : (hit.map Prod.snd).Pairwise (· < ·) := by
      refine List.Pairwise.sublist (List.filter_sublist.map _) ?_
      rw [List.zipIdx_map_snd]
      exact List.pairwise_lt_range'
    refine List.Pairwise.eq_of_mem_iff increasing sorted fun i => ?_
    rw [mem, List.mem_map]
    constructor
    · rintro ⟨symbol, place, holds⟩
      exact ⟨(symbol, i), List.mem_filter.2 ⟨List.mem_zipIdx_iff_getElem?.2 place, holds⟩, rfl⟩
    · rintro ⟨a, here, rfl⟩
      obtain ⟨here, holds⟩ := List.mem_filter.1 here
      exact ⟨a.1, List.mem_zipIdx_iff_getElem?.1 here, holds⟩
  have entries : all.filter p = hit.map Prod.fst := by
    conv_lhs => rw [← List.zipIdx_map_fst 0 all]
    rw [List.filter_map]
    rfl
  rw [places, entries, List.forall₂_map_left_iff, List.forall₂_map_right_iff, List.forall₂_same]
  exact fun a here => List.mem_zipIdx_iff_getElem?.1 (List.mem_of_mem_filter here)

end Consistent

end SnapshotFormat

end SimplicioFast
