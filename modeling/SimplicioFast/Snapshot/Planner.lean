import Mathlib.Data.List.Infix
import Mathlib.Data.List.Perm.Subperm
import SimplicioFast.Snapshot.Packed

/-!
# Query plans

`plan_query` predicts how many records a search examines.  It counts the positions that the posting lists of its filters
share, where `search` joins the lists of names and of qualified names, so the two counts agree exactly when these lists
have the same positions behind the filters (`counts_iff`).

The names to prefetch and the cache of plans are left out.
-/

namespace SimplicioFast

/-- An open snapshot of version 1: its bytes, and the symbols as `_symbol_at` reads them. -/
structure LegacySnapshot where
  map : Bytes
  symbolCount : ℕ
  symbolAt : ℕ → Except SnapshotRaised Symbol

/-- An open snapshot of either version. -/
inductive AnySnapshot
  | legacy (s : LegacySnapshot)
  | indexed (s : OpenSnapshot)

namespace Planner

open SnapshotFormat

def PLAN_SCHEMA : PyStr := "simplicio.fast.query-plan/v1"

/-- The arguments of `plan_query`. -/
structure Request where
  term : PyStr
  operation : PyStr := "query"
  byPrefix : Bool := false
  path : Option PyStr := none
  kind : Option PyStr := none
  maxResults : ℤ := 50
  maxBytes : ℤ := 32000
  maxTokens : ℤ := 8000

structure QueryPlan where
  generation : PyStr
  operation : PyStr
  term : PyStr
  selectedIndex : PyStr
  candidateRecords : ℕ
  estimatedBytes : ℤ
  maxResults : ℤ
  maxBytes : ℤ
  maxTokens : ℤ
  reason : PyStr
  requestDigest : PyStr

def mapOf : AnySnapshot → Bytes
  | .legacy s => s.map
  | .indexed s => s.map

/-- `Snapshot.generation`. -/
def generationOf (s : AnySnapshot) : PyStr := ("SFAST001:" : PyStr) ++ PyStr.ofChars (Sha256.hexdigest (mapOf s))

def requestDigest (r : Request) : Except SnapshotRaised PyStr :=
  let request := Json.obj [("schema", .str PLAN_SCHEMA), ("term", .str r.term), ("operation", .str r.operation),
    ("prefix", .bool r.byPrefix), ("path", Json.optStr r.path), ("kind", Json.optStr r.kind),
    ("max_results", .int r.maxResults), ("max_bytes", .int r.maxBytes), ("max_tokens", .int r.maxTokens)]
  match (request.dumps false).encode with
  | none => .error .unicodeEncodeError
  | some b => .ok (PyStr.ofChars (Sha256.hexdigest b))

def intersection : List (List ℕ) → List ℕ
  | [] => []
  | values :: rest => sortedPositions (rest.foldl (fun result value => result.filter (· ∈ value)) values)

example : intersection [[3, 1, 2], [2, 5, 3]] = [2, 3] := by decide +kernel

/-- The posting lists of the indexes that match the term, and why these. -/
structure Selection where
  selected : PyStr
  filters : List (List ℕ)
  reason : PyStr

def select (data : Json) (needle : PyStr) (byPrefix : Bool) : Except SnapshotRaised Selection := do
  let exact_ ← subscript data "exact"
  let exactValues ← positionsAt exact_ needle
  if exactValues ≠ [] ∧ byPrefix = false then return ⟨"exact", [exactValues], "exact_index_hit"⟩
  else do
    let names ← subscript data "names"
    if byPrefix then do
      let found ← hits names needle.isPrefixOf
      return ⟨"name-prefix", [found], "prefix_index_scan"⟩
    else do
      let inNames ← hits names needle.contains
      let inExact ← hits exact_ needle.contains
      return ⟨"name-substring", [inNames, inExact], "bounded_name_indexes"⟩

/-- The selection with the filter of one more index, when it is given a key. -/
def addFilter (data : Json) (name suffix_ : PyStr) (key : Option PyStr) (s : Selection) :
    Except SnapshotRaised Selection :=
  match key with
  | none => .ok s
  | some key => do
    let index ← subscript data name
    let allowed ← positionsAt index key
    return { s with selected := s.selected ++ suffix_, filters := s.filters ++ [allowed] }

/-- The index that a plan selects, the number of its candidates, and the reason. -/
structure Choice where
  selected : PyStr
  candidateRecords : ℕ
  reason : PyStr

/-- The part of `plan_query` that counts the candidates. -/
def choose (casefold : PyStr → PyStr) (s : AnySnapshot) (r : Request) : Except SnapshotRaised Choice :=
  match s with
  | .legacy s => .ok ⟨"legacy-linear-scan", if r.operation ≠ ("impact") then s.symbolCount else 0,
      "legacy_snapshot_has_no_direct_indexes"⟩
  | .indexed s =>
    if r.operation = ("impact") then .ok ⟨"relation-scan", s.relationCount, "impact_requires_typed_relation_filter"⟩
    else do
      let data ← indexData s
      let selection ← select data (casefold r.term) r.byPrefix
      let selection ← addFilter data "paths" "+path" r.path selection
      let selection ← addFilter data "kinds" "+kind" r.kind selection
      return ⟨selection.selected, (intersection selection.filters).length, selection.reason⟩

/-- `plan_query` without a cache. -/
def planQuery (casefold : PyStr → PyStr) (s : AnySnapshot) (r : Request) : Except SnapshotRaised QueryPlan := do
  require (r.operation ∈ (["query", "search", "context", "impact"] : List PyStr))
    (.valueError "unsupported query-plan operation")
  require (1 ≤ min r.maxResults (min r.maxBytes r.maxTokens)) (.valueError "query-plan budgets must be positive")
  let digest ← requestDigest r
  let choice ← choose casefold s r
  return { generation := generationOf s
           operation := r.operation
           term := r.term
           selectedIndex := choice.selected
           candidateRecords := choice.candidateRecords
           estimatedBytes := min r.maxBytes (choice.candidateRecords * symbolSize)
           maxResults := r.maxResults
           maxBytes := r.maxBytes
           maxTokens := r.maxTokens
           reason := choice.reason
           requestDigest := digest }

/-! ## What a search examines -/

/-- The positions of the records that `search` reads. -/
def examined (casefold : PyStr → PyStr) (s : AnySnapshot) (r : Request) : Except SnapshotRaised (List ℕ) :=
  match s with
  | .legacy s => .ok (List.range s.symbolCount)
  | .indexed s => do
    let data ← indexData s
    let positions ← candidates data (casefold r.term) r.byPrefix
    let positions ← narrow data "paths" r.path positions
    let positions ← narrow data "kinds" r.kind positions
    return sortedPositions positions

/-- `search`. -/
def searchAny (casefold : PyStr → PyStr) (s : AnySnapshot) (r : Request) : Except SnapshotRaised (List Symbol) :=
  match s with
  | .legacy s => do
    let symbols ← (List.range s.symbolCount).mapM s.symbolAt
    return symbols.insertionSort fun a b => symbolLe casefold a b = true
  | .indexed s => search casefold s r.term r.byPrefix r.path r.kind

variable {casefold : PyStr → PyStr} {s : AnySnapshot} {r : Request} {positions l m : List ℕ} {symbols : List Symbol}
  {plan : QueryPlan} {data index : Json} {name needle suffix_ : PyStr} {key : Option PyStr} {i : ℕ}
  {selection selection' : Selection}

theorem length_searchAny (ran : examined casefold s r = .ok positions) (found : searchAny casefold s r = .ok symbols) :
    symbols.length = positions.length := by
  cases s with
  | legacy s =>
    cases ran
    obtain ⟨read, each, found⟩ := bind_ok.1 found
    cases found
    rw [List.length_insertionSort]
    exact (Except.mapM_eq_ok_iff.1 each).length_eq.symm
  | indexed s =>
    obtain ⟨data, loaded, ran⟩ := bind_ok.1 ran
    obtain ⟨first, ranFirst, ran⟩ := bind_ok.1 ran
    obtain ⟨second, ranSecond, ran⟩ := bind_ok.1 ran
    obtain ⟨third, ranThird, ran⟩ := bind_ok.1 ran
    cases ran
    obtain ⟨data', loaded', found⟩ := bind_ok.1 found
    cases loaded.symm.trans loaded'
    obtain ⟨first', ranFirst', found⟩ := bind_ok.1 found
    cases ranFirst.symm.trans ranFirst'
    obtain ⟨second', ranSecond', found⟩ := bind_ok.1 found
    cases ranSecond.symm.trans ranSecond'
    obtain ⟨third', ranThird', found⟩ := bind_ok.1 found
    cases ranThird.symm.trans ranThird'
    obtain ⟨files, -, found⟩ := bind_ok.1 found
    obtain ⟨read, each, found⟩ := bind_ok.1 found
    cases found
    rw [List.length_insertionSort]
    exact (Except.mapM_eq_ok_iff.1 each).length_eq.symm

/-! ## Positions behind the filters -/

/-- The position passes the filter of an index. -/
def Passes (data : Json) (name : PyStr) (key : Option PyStr) (i : ℕ) : Prop :=
  ∀ k, key = some k → ∃ index allowed, subscript data name = .ok index ∧ positionsAt index k = .ok allowed ∧ i ∈ allowed

theorem mem_narrow (ran : narrow data name key l = .ok m) : i ∈ m ↔ i ∈ l ∧ Passes data name key i := by
  unfold narrow at ran
  split at ran
  · cases ran
    exact (and_iff_left fun k absurd => by cases absurd).symm
  · rename_i k
    obtain ⟨index, there, ran⟩ := bind_ok.1 ran
    obtain ⟨allowed, listed, ran⟩ := bind_ok.1 ran
    cases ran
    rw [mem_sortedPositions, List.mem_filter, decide_eq_true_eq]
    refine and_congr_right fun _ => ⟨fun mem k' same => ?_, fun passes => ?_⟩
    · cases same
      exact ⟨index, allowed, there, listed, mem⟩
    · obtain ⟨index', allowed', there', listed', mem⟩ := passes k rfl
      cases there.symm.trans there'
      cases listed.symm.trans listed'
      exact mem

theorem mem_intersection {v : List ℕ} {rest : List (List ℕ)} :
    i ∈ intersection (v :: rest) ↔ ∀ w ∈ v :: rest, i ∈ w := by
  rw [intersection, mem_sortedPositions, List.forall_mem_cons]
  induction rest generalizing v with
  | nil => simp
  | cons w rest ih =>
    rw [List.foldl_cons, ih, List.mem_filter, decide_eq_true_eq, List.forall_mem_cons, and_assoc]

theorem addFilter_ne_nil (nonempty : selection.filters ≠ [])
    (ran : addFilter data name suffix_ key selection = .ok selection') : selection'.filters ≠ [] := by
  unfold addFilter at ran
  split at ran
  · cases ran
    exact nonempty
  · obtain ⟨index, -, ran⟩ := bind_ok.1 ran
    obtain ⟨allowed, -, ran⟩ := bind_ok.1 ran
    cases ran
    simp

theorem forall_mem_addFilter (ran : addFilter data name suffix_ key selection = .ok selection') :
    (∀ w ∈ selection'.filters, i ∈ w) ↔ (∀ w ∈ selection.filters, i ∈ w) ∧ Passes data name key i := by
  unfold addFilter at ran
  split at ran
  · cases ran
    exact (and_iff_left fun k absurd => by cases absurd).symm
  · rename_i k
    obtain ⟨index, there, ran⟩ := bind_ok.1 ran
    obtain ⟨allowed, listed, ran⟩ := bind_ok.1 ran
    cases ran
    rw [List.forall_mem_append, List.forall_mem_singleton]
    refine and_congr_right fun _ => ⟨fun mem k' same => ?_, fun passes => ?_⟩
    · cases same
      exact ⟨index, allowed, there, listed, mem⟩
    · obtain ⟨index', allowed', there', listed', mem⟩ := passes k rfl
      cases there.symm.trans there'
      cases listed.symm.trans listed'
      exact mem

/-! ## Agreement -/

/-- The posting lists that a term without a prefix matches: that of the term itself among the qualified names, and those
of the names and the qualified names that contain it. -/
structure Postings (data : Json) (needle : PyStr) (exactValues inNames inExact : List ℕ) : Prop where
  exactValues : ∃ index, subscript data "exact" = .ok index ∧ positionsAt index needle = .ok exactValues ∧
    hits index needle.contains = .ok inExact
  names : ∃ index, subscript data "names" = .ok index ∧ hits index needle.contains = .ok inNames

/-- When the indexes make a plan count what a search finds.  Behind the filters, and unless names are looked up by a
prefix: where the term is a qualified name, no other symbol has a name or a qualified name that contains it; elsewhere
the symbols whose name contains it are those whose qualified name does. -/
def Agree (casefold : PyStr → PyStr) (s : AnySnapshot) (r : Request) : Prop :=
  match s with
  | .legacy _ => True
  | .indexed s => r.byPrefix = false → ∀ data exactValues inNames inExact, indexData s = .ok data →
      Postings data (casefold r.term) exactValues inNames inExact →
      ∀ i, Passes data "paths" r.path i → Passes data "kinds" r.kind i →
        if exactValues ≠ [] then i ∈ inNames ∨ i ∈ inExact → i ∈ exactValues else i ∈ inNames ↔ i ∈ inExact

/-- The plan counts the records that the search examines, and it is not zero when the search finds something. -/
structure Counts (casefold : PyStr → PyStr) (s : AnySnapshot) (r : Request) (plan : QueryPlan) (positions : List ℕ) :
    Prop where
  equal : plan.candidateRecords = positions.length
  found : ∀ symbols, searchAny casefold s r = .ok symbols → symbols ≠ [] → plan.candidateRecords ≠ 0

theorem mem_inExact {exactValues inNames inExact : List ℕ} (postings : Postings data needle exactValues inNames inExact)
    (mem : i ∈ exactValues) : i ∈ inExact := by
  obtain ⟨index, -, listed, hit⟩ := postings.exactValues
  obtain ⟨fields, items, listed⟩ := bind_ok.1 listed
  obtain ⟨fields', items', hit⟩ := bind_ok.1 hit
  cases items.symm.trans items'
  obtain ⟨found, each, hit⟩ := bind_ok.1 hit
  cases hit
  split at listed
  · rename_i values there
    have self : needle.contains needle = true := by
      rw [PyStr.contains, List.any_eq_true]
      refine ⟨needle, ?_, List.isPrefixOf_iff_prefix.2 (List.prefix_refl needle)⟩
      exact (List.mem_tails _ _).2 (List.suffix_refl needle)
    refine List.mem_flatten.2 ⟨exactValues, (Except.mem_of_mapM_eq_ok each).2 ⟨(needle, values), ?_, listed⟩, mem⟩
    exact List.mem_filter.2 ⟨Dict.mem_of_lookup there, self⟩
  · cases listed
    cases mem

theorem length_eq_iff (nodup : l.Nodup) (nodup' : m.Nodup) (subset : ∀ i ∈ l, i ∈ m) :
    l.length = m.length ↔ ∀ i ∈ m, i ∈ l := by
  have inside := nodup.subperm subset
  constructor
  · intro same i mem
    exact (inside.perm_of_length_le same.ge).mem_iff.2 mem
  · intro all
    exact le_antisymm inside.length_le (nodup'.subperm all).length_le

theorem nodup_sortedPositions (positions : List ℕ) : (sortedPositions positions).Nodup :=
  (pairwise_sortedPositions positions).imp fun h => h.ne

theorem Postings.unique {e n x e' n' x' : List ℕ} (h : Postings data needle e n x) (h' : Postings data needle e' n' x') :
    e = e' ∧ n = n' ∧ x = x' := by
  obtain ⟨⟨exact_, there, listed, inExact⟩, names, has, inNames⟩ := h
  obtain ⟨⟨exact', there', listed', inExact'⟩, names', has', inNames'⟩ := h'
  cases there.symm.trans there'
  cases has.symm.trans has'
  cases listed.symm.trans listed'
  cases inExact.symm.trans inExact'
  cases inNames.symm.trans inNames'
  exact ⟨rfl, rfl, rfl⟩

theorem select_byPrefix (selected : select data needle true = .ok selection) (ran : candidates data needle true = .ok l) :
    selection.filters = [l] := by
  obtain ⟨exact_, -, selected⟩ := bind_ok.1 selected
  obtain ⟨exactValues, -, selected⟩ := bind_ok.1 selected
  rw [if_neg fun both => absurd both.2 (by decide)] at selected
  obtain ⟨names, there, selected⟩ := bind_ok.1 selected
  obtain ⟨names', there', ran⟩ := bind_ok.1 ran
  cases there.symm.trans there'
  rw [if_pos rfl] at selected ran
  obtain ⟨found, hit, selected⟩ := bind_ok.1 selected
  cases hit.symm.trans ran
  cases selected
  rfl

theorem select_posting (selected : select data needle false = .ok selection)
    (ran : candidates data needle false = .ok l) :
    ∃ exactValues inNames inExact, Postings data needle exactValues inNames inExact ∧ l = inNames ++ inExact ∧
      selection.filters = if exactValues ≠ [] then [exactValues] else [inNames, inExact] := by
  obtain ⟨exact_, hasExact, selected⟩ := bind_ok.1 selected
  obtain ⟨exactValues, listed, selected⟩ := bind_ok.1 selected
  obtain ⟨names, hasNames, ran⟩ := bind_ok.1 ran
  rw [if_neg Bool.false_ne_true] at ran
  obtain ⟨inNames, hitNames, ran⟩ := bind_ok.1 ran
  obtain ⟨exact', hasExact', ran⟩ := bind_ok.1 ran
  cases hasExact.symm.trans hasExact'
  obtain ⟨inExact, hitExact, ran⟩ := bind_ok.1 ran
  cases ran
  refine ⟨exactValues, inNames, inExact, ⟨⟨exact_, hasExact, listed, hitExact⟩, names, hasNames, hitNames⟩, rfl, ?_⟩
  by_cases some : exactValues ≠ []
  · rw [if_pos ⟨some, rfl⟩] at selected
    cases selected
    rw [if_pos some]
  · rw [if_neg fun both => some both.1] at selected
    obtain ⟨names', hasNames', selected⟩ := bind_ok.1 selected
    cases hasNames.symm.trans hasNames'
    rw [if_neg Bool.false_ne_true] at selected
    obtain ⟨inNames', hitNames', selected⟩ := bind_ok.1 selected
    cases hitNames.symm.trans hitNames'
    obtain ⟨inExact', hitExact', selected⟩ := bind_ok.1 selected
    cases hitExact.symm.trans hitExact'
    cases selected
    rw [if_neg some]

/-- A plan counts what a search examines, when the indexes agree. -/
theorem counts_iff (query : r.operation ≠ ("impact")) (planned : planQuery casefold s r = .ok plan)
    (ran : examined casefold s r = .ok positions) : Counts casefold s r plan positions ↔ Agree casefold s r := by
  have enough : Counts casefold s r plan positions ↔ plan.candidateRecords = positions.length := by
    refine ⟨Counts.equal, fun equal => ⟨equal, fun symbols found some none => some ?_⟩⟩
    rw [← List.length_eq_zero_iff, length_searchAny ran found, ← equal, none]
  rw [enough]
  obtain ⟨⟨⟩, -, planned⟩ := bind_ok.1 planned
  obtain ⟨⟨⟩, -, planned⟩ := bind_ok.1 planned
  obtain ⟨digest, -, planned⟩ := bind_ok.1 planned
  obtain ⟨choice, chosen, planned⟩ := bind_ok.1 planned
  cases planned
  dsimp only
  cases s with
  | legacy s =>
    cases chosen
    cases ran
    dsimp only
    rw [if_pos query, List.length_range]
    exact iff_of_true rfl trivial
  | indexed s =>
    rw [choose, if_neg query] at chosen
    obtain ⟨data, loaded, chosen⟩ := bind_ok.1 chosen
    obtain ⟨selection, selected, chosen⟩ := bind_ok.1 chosen
    obtain ⟨withPath, path, chosen⟩ := bind_ok.1 chosen
    obtain ⟨withKind, kind, chosen⟩ := bind_ok.1 chosen
    cases chosen
    obtain ⟨data', loaded', ran⟩ := bind_ok.1 ran
    cases loaded.symm.trans loaded'
    obtain ⟨found, hit, ran⟩ := bind_ok.1 ran
    obtain ⟨inPath, ranPath, ran⟩ := bind_ok.1 ran
    obtain ⟨inKind, ranKind, ran⟩ := bind_ok.1 ran
    cases ran
    have memSearch (i : ℕ) : i ∈ sortedPositions inKind ↔
        (i ∈ found ∧ Passes data "paths" r.path i) ∧ Passes data "kinds" r.kind i := by
      rw [mem_sortedPositions, mem_narrow ranKind, mem_narrow ranPath]
    have memPlan (i : ℕ) (nonempty : selection.filters ≠ []) : i ∈ intersection withKind.filters ↔
        ((∀ w ∈ selection.filters, i ∈ w) ∧ Passes data "paths" r.path i) ∧ Passes data "kinds" r.kind i := by
      obtain ⟨v, rest, starts⟩ := List.exists_cons_of_ne_nil
        (addFilter_ne_nil (addFilter_ne_nil nonempty path) kind)
      rw [starts, mem_intersection, ← starts, forall_mem_addFilter kind, forall_mem_addFilter path]
    have count := length_eq_iff (l := intersection withKind.filters) (m := sortedPositions inKind) (by
      cases withKind.filters with
      | nil => exact List.nodup_nil
      | cons v rest => exact nodup_sortedPositions _) (nodup_sortedPositions _)
    dsimp only
    cases byPrefix : r.byPrefix with
    | true =>
      rw [byPrefix] at selected hit
      have same := select_byPrefix selected hit
      have equal (i : ℕ) : i ∈ intersection withKind.filters ↔ i ∈ sortedPositions inKind := by
        rw [memPlan i (by rw [same]; exact List.cons_ne_nil _ _), memSearch, same, List.forall_mem_singleton]
      rw [count fun i mem => (equal i).1 mem]
      refine iff_of_true (fun i mem => (equal i).2 mem) fun absurd => ?_
      rw [byPrefix] at absurd
      cases absurd
    | false =>
      rw [byPrefix] at selected hit
      obtain ⟨exactValues, inNames, inExact, postings, rfl, same⟩ := select_posting selected hit
      have nonempty : selection.filters ≠ [] := by
        rw [same]
        split <;> exact List.cons_ne_nil _ _
      have agree : Agree casefold (.indexed s) r ↔ ∀ i, Passes data "paths" r.path i → Passes data "kinds" r.kind i →
          if exactValues ≠ [] then i ∈ inNames ∨ i ∈ inExact → i ∈ exactValues else i ∈ inNames ↔ i ∈ inExact := by
        constructor
        · exact fun agree => agree byPrefix data exactValues inNames inExact loaded postings
        · rintro all - data' e n x loaded' postings'
          cases loaded.symm.trans loaded'
          obtain ⟨rfl, rfl, rfl⟩ := postings.unique postings'
          exact all
      have filters (i : ℕ) : (∀ w ∈ selection.filters, i ∈ w) ↔
          if exactValues ≠ [] then i ∈ exactValues else i ∈ inNames ∧ i ∈ inExact := by
        rw [same]
        split <;> simp
      have subset : ∀ i ∈ intersection withKind.filters, i ∈ sortedPositions inKind := by
        intro i mem
        rw [memPlan i nonempty, filters] at mem
        rw [memSearch, List.mem_append]
        refine ⟨⟨?_, mem.1.2⟩, mem.2⟩
        have listed := mem.1.1
        split at listed
        · exact .inr (mem_inExact postings listed)
        · exact .inl listed.1
      rw [count subset, agree]
      refine forall_congr' fun i => ?_
      rw [memPlan i nonempty, memSearch, filters, List.mem_append]
      constructor
      · intro kept onPath ofKind
        have kept' := fun mem => (kept ⟨⟨mem, onPath⟩, ofKind⟩).1.1
        split at kept'
        · rwa [if_pos (by assumption)]
        · rw [if_neg (by assumption)]
          exact ⟨fun mem => (kept' (.inl mem)).2, fun mem => (kept' (.inr mem)).1⟩
      · rintro agrees ⟨⟨mem, onPath⟩, ofKind⟩
        have agrees' := agrees onPath ofKind
        refine ⟨⟨?_, onPath⟩, ofKind⟩
        split at agrees'
        · rw [if_pos (by assumption)]
          exact agrees' mem
        · rw [if_neg (by assumption)]
          exact mem.elim (fun mem => ⟨mem, agrees'.1 mem⟩) fun mem => ⟨agrees'.2 mem, mem⟩

def sample : Except SnapshotRaised Bytes :=
  buildV2 PyStr.asciiCasefold [⟨"f", [], 0, [{
    name := "ab"
    qualifiedName := "x"
    kind := "function"
    file := "f"
    line := 1
    endLine := 1 }]⟩] [] none

def sampleRequest : Request where
  term := "b"

theorem planned_sample : ∃ map s plan positions symbols, sample = .ok map ∧ openSnapshot map = .ok s ∧
    planQuery PyStr.asciiCasefold (.indexed s) sampleRequest = .ok plan ∧
    examined PyStr.asciiCasefold (.indexed s) sampleRequest = .ok positions ∧
    searchAny PyStr.asciiCasefold (.indexed s) sampleRequest = .ok symbols ∧
    plan.candidateRecords = 0 ∧ symbols ≠ [] := by
  have ran : ((do
      let map ← sample
      let s ← openSnapshot map
      let plan ← planQuery PyStr.asciiCasefold (.indexed s) sampleRequest
      let _ ← examined PyStr.asciiCasefold (.indexed s) sampleRequest
      let symbols ← searchAny PyStr.asciiCasefold (.indexed s) sampleRequest
      return (plan.candidateRecords, symbols) : Except SnapshotRaised (ℕ × List Symbol)).toOption.map fun counts =>
        (counts.1, counts.2.length)) = some (0, 1) := by
    unfold sample
    rw [buildV2_bind_openSnapshot]
    decide +kernel
  obtain ⟨counts, ran, same⟩ := Except.exists_of_map_toOption ran
  obtain ⟨map, packed, ran⟩ := bind_ok.1 ran
  obtain ⟨s, opened, ran⟩ := bind_ok.1 ran
  obtain ⟨plan, planned, ran⟩ := bind_ok.1 ran
  obtain ⟨positions, read, ran⟩ := bind_ok.1 ran
  obtain ⟨symbols, found, ran⟩ := bind_ok.1 ran
  cases ran
  obtain ⟨none, one⟩ := Prod.mk.inj same
  refine ⟨map, s, plan, positions, symbols, packed, opened, planned, read, found, none, ?_⟩
  rintro rfl
  cases one

/-- The indexes of that snapshot do not agree on the part of the name. -/
theorem counts_iff_sample : ∃ s plan positions,
    planQuery PyStr.asciiCasefold (.indexed s) sampleRequest = .ok plan ∧
    examined PyStr.asciiCasefold (.indexed s) sampleRequest = .ok positions ∧
    ¬ Agree PyStr.asciiCasefold (.indexed s) sampleRequest := by
  obtain ⟨-, s, plan, positions, symbols, -, -, planned, read, found, none, some⟩ := planned_sample
  refine ⟨s, plan, positions, planned, read, fun agree => ?_⟩
  exact ((counts_iff (by decide) planned read).2 agree).found symbols found some none

/-- A plan can count other records than its search examines. -/
theorem not_counts : ¬ ∀ (s : AnySnapshot) (r : Request) (plan : QueryPlan) (positions : List ℕ),
    r.operation ≠ ("impact") → planQuery PyStr.asciiCasefold s r = .ok plan →
    examined PyStr.asciiCasefold s r = .ok positions → Counts PyStr.asciiCasefold s r plan positions := by
  intro counts
  obtain ⟨-, s, plan, positions, symbols, -, -, planned, read, found, none, some⟩ := planned_sample
  exact (counts (.indexed s) sampleRequest plan positions (by decide) planned read).found symbols found some none

end Planner

end SimplicioFast
