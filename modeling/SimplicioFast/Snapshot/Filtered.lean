import Mathlib.Data.List.Induction
import Mathlib.Data.Prod.Lex
import SimplicioFast.Lib.Lists
import SimplicioFast.Snapshot.RoundTrip

/-!
# Filtered searches

`search` filters by the index of the kinds, whose keys are the kinds that the symbols were given with.  A record has a
number for the kind instead, and several kinds share a number.  So the symbols that are found have the kind that is
asked for exactly when no kind among the matches is read back as another one (`search_agrees_iff`).

The other indexes are keyed by what the records hold: the names and the qualified names, casefolded, and the paths.  A
snapshot of version 1 has no indexes, and a search of it finds all symbols.
-/

namespace SimplicioFast

namespace SnapshotFormat

variable {casefold : PyStr → PyStr} {key : Symbol → PyStr} {all : List Symbol} {s : OpenSnapshot}
  {entries : List FileEntry} {relationList : List Relation} {provenance : Option Json} {payload : Bytes}

/-! ## The indexes -/

/-- A turn of the loop that makes an index. -/
def indexTurn (key : Symbol → PyStr) (d : Dict PyStr (List Json)) (symbol : Symbol × ℕ) : Dict PyStr (List Json) :=
  d.set (key symbol.1) ((d.get? (key symbol.1)).getD [] ++ [.int symbol.2])

/-- The positions of the symbols with a key. -/
def positionsOfKey (key : Symbol → PyStr) (placed : List (Symbol × ℕ)) (k : PyStr) : List ℕ :=
  (placed.filter fun a => key a.1 = k).map Prod.snd

theorem get?_foldl_indexTurn (placed : List (Symbol × ℕ)) (k : PyStr) :
    (placed.foldl (indexTurn key) .empty).get? k = if positionsOfKey key placed k = [] then none
      else some ((positionsOfKey key placed k).map fun i : ℕ => Json.int i) := by
  induction placed using List.reverseRecOn with
  | nil => rfl
  | append_singleton placed a ih =>
    have behind : positionsOfKey key (placed ++ [a]) k =
        positionsOfKey key placed k ++ if key a.1 = k then [a.2] else [] := by
      unfold positionsOfKey
      rw [List.filter_append, List.map_append, List.filter_singleton]
      by_cases same : key a.1 = k
      · simp [same]
      · simp [same]
    rw [List.foldl_append, List.foldl_cons, List.foldl_nil, indexTurn, Dict.get?_set]
    by_cases same : k = key a.1
    · subst same
      rw [behind, if_pos rfl, if_pos rfl, if_neg (by simp), ih]
      split_ifs with none
      · rw [none]
        rfl
      · rw [List.map_append]
        rfl
    · rw [if_neg (show ¬ key a.1 = k from fun h => same h.symm), List.append_nil] at behind
      rw [if_neg same, behind, ih]

theorem indexBy_eq (key : Symbol → PyStr) (all : List Symbol) : indexBy key all =
    .obj ((all.zipIdx.foldl (indexTurn key) .empty).entries.map fun e => (e.1, .arr e.2)) := rfl

theorem get?_indexBy (key : Symbol → PyStr) (all : List Symbol) (k : PyStr) : (indexBy key all).get? k =
    if positionsOfKey key all.zipIdx k = [] then none
      else some (.arr ((positionsOfKey key all.zipIdx k).map fun i : ℕ => Json.int i)) := by
  have mapped (l : List (PyStr × List Json)) :
      Dict.find (l.map fun e => (e.1, Json.arr e.2)) k = (Dict.find l k).map Json.arr := by
    induction l with
    | nil => rfl
    | cons e l ih =>
      rw [List.map_cons, Dict.find_cons, Dict.find_cons, ih]
      split_ifs <;> rfl
  rw [indexBy_eq]
  show Dict.find _ k = _
  rw [mapped]
  show ((all.zipIdx.foldl (indexTurn key) .empty).get? k).map Json.arr = _
  rw [get?_foldl_indexTurn]
  split_ifs <;> rfl

theorem sortKeys_positions (l : List ℕ) :
    (Json.arr (l.map fun i : ℕ => Json.int i)).sortKeys = .arr (l.map fun i : ℕ => Json.int i) := by
  rw [Json.sortKeys, Json.sortItems_eq_map, List.map_map]
  rfl

theorem positionsOf_positions (l : List ℕ) : positionsOf (.arr (l.map fun i : ℕ => Json.int i)) = .ok l := by
  show (l.map fun i : ℕ => Json.int i).mapM positionOf = .ok l
  rw [Except.mapM_eq_ok_iff, List.forall₂_map_left_iff, List.forall₂_same]
  intro i _
  show (if 0 ≤ (i : ℤ) then Except.ok (i : ℤ).toNat else .error SnapshotRaised.structError) = .ok i
  rw [if_pos (Int.natCast_nonneg i), Int.toNat_natCast]

theorem mem_fields_indexBy {f : PyStr × Json} (mem : f ∈ (all.zipIdx.foldl (indexTurn key) .empty).entries.map
    fun e => (e.1, Json.arr e.2)) : positionsOfKey key all.zipIdx f.1 ≠ [] ∧
      f.2 = .arr ((positionsOfKey key all.zipIdx f.1).map fun i : ℕ => Json.int i) := by
  obtain ⟨e, inside, rfl⟩ := List.mem_map.1 mem
  have found := (Dict.get?_eq_some_iff (all.zipIdx.foldl (indexTurn key) .empty) e.1 e.2).2 inside
  rw [get?_foldl_indexTurn] at found
  split_ifs at found with none
  exact ⟨none, congrArg Json.arr (Option.some.inj found).symm⟩

theorem distinctKeys_indexBy (key : Symbol → PyStr) (all : List Symbol) : (indexBy key all).DistinctKeys := by
  rw [indexBy_eq]
  refine ⟨?_, Json.distinctFields_iff.2 fun f mem => ?_⟩
  · rw [List.map_map]
    exact (all.zipIdx.foldl (indexTurn key) .empty).nodup
  · rw [(mem_fields_indexBy mem).2]
    refine Json.distinctItems_iff.2 fun v inside => ?_
    obtain ⟨i, -, rfl⟩ := List.mem_map.1 inside
    trivial

theorem mem_positionsOfKey {i : ℕ} {k : PyStr} : i ∈ positionsOfKey key all.zipIdx k ↔
    ∃ symbol, all[i]? = some symbol ∧ key symbol = k := by
  unfold positionsOfKey
  rw [List.mem_map]
  constructor
  · rintro ⟨a, mem, rfl⟩
    obtain ⟨inside, same⟩ := List.mem_filter.1 mem
    exact ⟨a.1, List.mem_zipIdx_iff_getElem?.1 inside, of_decide_eq_true same⟩
  · rintro ⟨symbol, there, same⟩
    exact ⟨(symbol, i), List.mem_filter.2 ⟨List.mem_zipIdx_iff_getElem?.2 there, decide_eq_true same⟩, rfl⟩

theorem indexLists_indexBy (key : Symbol → PyStr) (all : List Symbol) :
    IndexLists (some (indexBy key all).sortKeys) key all := by
  have entry {f : PyStr × Json} (mem : f ∈ Json.sortedFields ((all.zipIdx.foldl (indexTurn key) .empty).entries.map
      fun e => (e.1, Json.arr e.2))) : positionsOf f.2 = .ok (positionsOfKey key all.zipIdx f.1) := by
    obtain ⟨⟨k, v⟩, inside, rfl⟩ := Json.mem_sortedFields.1 mem
    show positionsOf v.sortKeys = .ok (positionsOfKey key all.zipIdx k)
    rw [show v = _ from (mem_fields_indexBy inside).2, sortKeys_positions]
    exact positionsOf_positions _
  refine ⟨_, rfl, fun f mem => ⟨_, entry mem⟩, fun i k => ?_⟩
  rw [← mem_positionsOfKey]
  constructor
  · rintro ⟨f, mem, rfl, l, listed, inside⟩
    cases (entry mem).symm.trans listed
    exact inside
  · intro inside
    have found := get?_indexBy key all k
    rw [if_neg (List.ne_nil_of_mem inside), indexBy_eq] at found
    have mem := Dict.mem_of_lookup found
    refine ⟨_, Json.mem_sortedFields.2 ⟨_, mem, rfl⟩, rfl, _, ?_, inside⟩
    show positionsOf (Json.sortKeys _) = _
    rw [sortKeys_positions]
    exact positionsOf_positions _

theorem positionsAt_indexBy (key : Symbol → PyStr) (all : List Symbol) (k : PyStr) :
    positionsAt (indexBy key all).sortKeys k = .ok (positionsOfKey key all.zipIdx k) := by
  have found := Json.get?_sortKeys (distinctKeys_indexBy key all) k
  rw [get?_indexBy] at found
  unfold positionsAt
  rw [indexBy_eq, Json.sortKeys_obj] at found ⊢
  refine bind_ok.2 ⟨_, rfl, ?_⟩
  rw [show Dict.find _ k = _ from found]
  split_ifs with none
  · rw [none]
    rfl
  · show positionsOf (Json.sortKeys _) = _
    rw [sortKeys_positions]
    exact positionsOf_positions _

/-! ## Snapshots that were written -/

theorem eq_of_validateProvenance {value : Option Json} {checked : Json} (valid : validateProvenance value = .ok checked) :
    value = some checked := by
  unfold validateProvenance at valid
  split at valid
  · obtain ⟨_, _, valid⟩ := bind_ok.1 valid
    obtain ⟨_, _, valid⟩ := bind_ok.1 valid
    obtain ⟨_, _, valid⟩ := bind_ok.1 valid
    obtain ⟨_, _, valid⟩ := bind_ok.1 valid
    obtain ⟨_, _, valid⟩ := bind_ok.1 valid
    obtain ⟨_, _, valid⟩ := bind_ok.1 valid
    obtain ⟨_, _, valid⟩ := bind_ok.1 valid
    cases valid
    rfl
  · cases valid

theorem distinctKeys_provenanceOrDefault (distinct : ∀ p, provenance = some p → p.DistinctKeys) :
    (provenanceOrDefault provenance).DistinctKeys := by
  have default : (bootstrapProvenance "unknown").DistinctKeys := by
    refine ⟨by decide, trivial, trivial, trivial, trivial, trivial, trivial, trivial, trivial, trivial, ?_, trivial⟩
    exact ⟨by decide, trivial, trivial, trivial, trivial, trivial, trivial, trivial⟩
  unfold provenanceOrDefault
  split
  · exact default
  · exact default
  · exact distinct _ rfl

theorem sortKeys_indexes (symbols : List Symbol) (checked : Json) : (indexes casefold symbols checked).sortKeys =
    .obj [("exact", (indexBy (fun a => casefold a.qualifiedName) symbols).sortKeys),
      ("kinds", (indexBy Symbol.kind symbols).sortKeys), ("names", (indexBy (fun a => casefold a.name) symbols).sortKeys),
      ("paths", (indexBy Symbol.file symbols).sortKeys), ("provenance", checked.sortKeys)] := rfl

theorem indexData_of_buildV2 (distinct : ∀ p, provenance = some p → p.DistinctKeys)
    (built : buildV2 casefold entries relationList provenance = .ok payload) (opened : openSnapshot payload = .ok s) :
    ∃ data, indexData s = .ok data ∧ ∀ name key, (name, key) ∈ [(("exact" : PyStr), fun a : Symbol =>
        casefold a.qualifiedName), ("names", fun a => casefold a.name), ("paths", Symbol.file), ("kinds", Symbol.kind)] →
      data.get? name = some (indexBy key (sortedSymbols casefold entries)).sortKeys := by
  obtain ⟨⟨strings₁, fileRecords⟩, -, built⟩ := bind_ok.1 built
  obtain ⟨⟨strings₂, symbolRecords⟩, -, built⟩ := bind_ok.1 built
  obtain ⟨checked, valid, built⟩ := bind_ok.1 built
  obtain ⟨relationBytes, -, built⟩ := bind_ok.1 built
  obtain ⟨indexBytes, written, built⟩ := bind_ok.1 built
  obtain ⟨bytes, packed, built⟩ := bind_ok.1 built
  obtain ⟨_, _, built⟩ := bind_ok.1 built
  obtain rfl := Except.ok.inj built
  have holds := (written_of_open packed opened).indexes
  have region : regionBytes s.map s.sections.indexes = indexBytes := by
    rw [regionBytes, holds.1, holds.2]
  have encoded : (Json.dumps false (indexes casefold (sortedSymbols casefold entries) checked)).encode =
      some indexBytes := by
    unfold jsonBytes at written
    split at written
    · cases written
    · rename_i b same
      cases written
      exact same
  have dict : checked.DistinctKeys := by
    have same := Option.some.inj (eq_of_validateProvenance valid)
    rw [← same]
    exact distinctKeys_provenanceOrDefault distinct
  have keys : (indexes casefold (sortedSymbols casefold entries) checked).DistinctKeys := by
    refine ⟨?_, Json.distinctFields_iff.2 ?_⟩
    · show ([("exact" : PyStr), "names", "paths", "kinds", "provenance"] : List PyStr).Nodup
      decide
    · simp only [List.forall_mem_cons]
      exact ⟨distinctKeys_indexBy _ _, distinctKeys_indexBy _ _, distinctKeys_indexBy _ _, distinctKeys_indexBy _ _,
        dict, fun _ mem => absurd mem List.not_mem_nil⟩
  obtain ⟨text, start⟩ : ∃ text, Json.dumps false (indexes casefold (sortedSymbols casefold entries) checked) =
      .scalar '{' :: .scalar '"' :: text := ⟨_, rfl⟩
  have decoded : PyStr.decodeDetected indexBytes =
      some (Json.dumps false (indexes casefold (sortedSymbols casefold entries) checked)) := by
    rw [start] at encoded ⊢
    exact PyStr.decodeDetected_of_start (by decide) (by decide) encoded
  refine ⟨(indexes casefold (sortedSymbols casefold entries) checked).sortKeys, ?_, fun name key mem => ?_⟩
  · unfold indexData loadsBytes
    rw [region, decoded, Option.bind_some, Json.loads_dumps _ keys]
  · rw [sortKeys_indexes]
    simp only [List.mem_cons, Prod.mk.injEq, List.not_mem_nil, or_false] at mem
    rcases mem with ⟨rfl, rfl⟩ | ⟨rfl, rfl⟩ | ⟨rfl, rfl⟩ | ⟨rfl, rfl⟩ <;> rfl

theorem symbolAt_of_buildV2 (built : buildV2 casefold entries relationList provenance = .ok payload)
    (opened : openSnapshot payload = .ok s) : ∃ found, files s = .ok found ∧
      ∀ (i : ℕ) symbol, (sortedSymbols casefold entries)[i]? = some symbol →
        symbolAt s (found.map Prod.fst) i = .ok (readBack casefold symbol) := by
  obtain ⟨s', opened', -, hasSymbols, -⟩ := readBack_of_buildV2 built
  cases opened.symm.trans opened'
  obtain ⟨found, hasFiles, read⟩ := bind_ok.1 hasSymbols
  refine ⟨found, hasFiles, fun i symbol there => ?_⟩
  have each := Except.mapM_eq_ok_iff.1 read
  obtain ⟨bound, rfl⟩ := List.getElem?_eq_some_iff.1 there
  have bound' : i < ((sortedSymbols casefold entries).map (readBack casefold)).length := by rwa [List.length_map]
  have inside : i < (List.range s.symbolCount).length := by rwa [each.length_eq]
  have here := each.get inside bound'
  rw [List.get_eq_getElem, List.getElem_range, List.get_eq_getElem, List.getElem_map] at here
  exact here

/-! ## Searches -/

/-- Whether a symbol matches a casefolded query. -/
def matchesQuery (casefold : PyStr → PyStr) (needle : PyStr) (byPrefix : Bool) (symbol : Symbol) : Bool :=
  if byPrefix then needle.isPrefixOf (casefold symbol.name)
  else needle.contains (casefold symbol.name) || needle.contains (casefold symbol.qualifiedName)

/-- Whether the file of a symbol is the one that is asked for. -/
def atPath (path : Option PyStr) (symbol : Symbol) : Bool := path.all (· = symbol.file)

/-- Whether the kind of a symbol is the one that is asked for. -/
def ofKind (kind : Option PyStr) (symbol : Symbol) : Bool := kind.all (· = symbol.kind)

theorem candidates_eq {data : Json} (names : data.get? "names" = some (indexBy (fun a => casefold a.name) all).sortKeys)
    (exacts : data.get? "exact" = some (indexBy (fun a => casefold a.qualifiedName) all).sortKeys)
    (needle : PyStr) (byPrefix : Bool) : ∃ l, candidates data needle byPrefix = .ok l ∧
      ∀ i, i ∈ l ↔ ∃ symbol, all[i]? = some symbol ∧ matchesQuery casefold needle byPrefix symbol = true := by
  unfold candidates subscript matchesQuery
  rw [names, exacts]
  cases byPrefix with
  | true =>
    obtain ⟨v, l, same, ran, mem⟩ := hits_eq (indexLists_indexBy (fun a => casefold a.name) all) needle.isPrefixOf
    cases same
    exact ⟨l, ran, mem⟩
  | false =>
    obtain ⟨v, l, same, ran, mem⟩ := hits_eq (indexLists_indexBy (fun a => casefold a.name) all) needle.contains
    obtain ⟨v', l', same', ran', mem'⟩ :=
      hits_eq (indexLists_indexBy (fun a => casefold a.qualifiedName) all) needle.contains
    cases same
    cases same'
    refine ⟨l ++ l', bind_ok.2 ⟨_, rfl, bind_ok.2 ⟨l, ran, bind_ok.2
      ⟨_, rfl, bind_ok.2 ⟨l', ran', rfl⟩⟩⟩⟩, fun i => ?_⟩
    rw [List.mem_append, mem, mem', ← exists_or]
    refine exists_congr fun symbol => ?_
    rw [if_neg Bool.false_ne_true, Bool.or_eq_true, and_or_left]

theorem narrow_eq {data : Json} {name : PyStr} (index : data.get? name = some (indexBy key all).sortKeys)
    (k : Option PyStr) {positions : List ℕ} {p : Symbol → Bool}
    (mem : ∀ i, i ∈ positions ↔ ∃ symbol, all[i]? = some symbol ∧ p symbol = true) :
    ∃ l, narrow data name k positions = .ok l ∧
      ∀ i, i ∈ l ↔ ∃ symbol, all[i]? = some symbol ∧ (p symbol && k.all (· = key symbol)) = true := by
  unfold narrow
  cases k with
  | none => exact ⟨positions, rfl, fun i => by simpa using mem i⟩
  | some k =>
    dsimp only
    unfold subscript
    rw [index]
    refine ⟨_, bind_ok.2 ⟨_, rfl, bind_ok.2 ⟨_, positionsAt_indexBy key all k, rfl⟩⟩,
      fun i => ?_⟩
    rw [mem_sortedPositions, List.mem_filter, mem, decide_eq_true_eq, mem_positionsOfKey]
    constructor
    · rintro ⟨⟨symbol, there, holds⟩, symbol', there', same⟩
      cases there.symm.trans there'
      exact ⟨symbol, there, by rw [holds, Option.all_some, same]; simp⟩
    · rintro ⟨symbol, there, holds⟩
      rw [Bool.and_eq_true, Option.all_some, decide_eq_true_eq] at holds
      exact ⟨⟨symbol, there, holds.1⟩, symbol, there, holds.2.symm⟩

theorem search_of_buildV2 (distinct : ∀ p, provenance = some p → p.DistinctKeys)
    (built : buildV2 casefold entries relationList provenance = .ok payload) (opened : openSnapshot payload = .ok s)
    (query : PyStr) (byPrefix : Bool) (path kind : Option PyStr) : search casefold s query byPrefix path kind =
      .ok ((((sortedSymbols casefold entries).filter fun symbol =>
        matchesQuery casefold (casefold query) byPrefix symbol && atPath path symbol && ofKind kind symbol).map
          (readBack casefold)).insertionSort fun a b => symbolLe casefold a b = true) := by
  obtain ⟨data, loaded, indexed⟩ := indexData_of_buildV2 distinct built opened
  obtain ⟨found, hasFiles, located⟩ := symbolAt_of_buildV2 built opened
  have exacts := indexed "exact" (fun a => casefold a.qualifiedName) (by simp)
  have names := indexed "names" (fun a => casefold a.name) (by simp)
  have paths := indexed "paths" Symbol.file (by simp)
  have kinds := indexed "kinds" Symbol.kind (by simp)
  obtain ⟨l, ran, mem⟩ := candidates_eq names exacts (casefold query) byPrefix
  obtain ⟨l', ran', mem'⟩ := narrow_eq paths path mem
  obtain ⟨l'', ran'', mem''⟩ := narrow_eq kinds kind mem'
  have hit (i : ℕ) : i ∈ sortedPositions l'' ↔ ∃ symbol, (sortedSymbols casefold entries)[i]? = some symbol ∧
      (matchesQuery casefold (casefold query) byPrefix symbol && atPath path symbol && ofKind kind symbol) = true := by
    rw [mem_sortedPositions]
    exact mem'' i
  have places := forall₂_filter (pairwise_sortedPositions _) hit
  have read : (sortedPositions l'').mapM (symbolAt s (found.map Prod.fst)) =
      .ok (((sortedSymbols casefold entries).filter fun symbol => matchesQuery casefold (casefold query) byPrefix symbol &&
        atPath path symbol && ofKind kind symbol).map (readBack casefold)) := by
    rw [Except.mapM_eq_ok_iff, List.forall₂_map_right_iff]
    exact places.imp (located · ·)
  refine bind_ok.2 ⟨data, loaded, bind_ok.2 ⟨l, ran, ?_⟩⟩
  exact bind_ok.2 ⟨l', ran', bind_ok.2 ⟨l'', ran'',
    bind_ok.2 ⟨found, hasFiles, bind_ok.2 ⟨_, read, rfl⟩⟩⟩⟩

/-! ## Agreement with the records -/

/-- A search finds exactly the records that match the query and the filters, in their order; and it finds the same when
what is found without filters is filtered afterwards. -/
def Agrees (casefold : PyStr → PyStr) (needle : PyStr) (byPrefix : Bool) (path kind : Option PyStr) (records : List Symbol)
    (unfiltered outcome : Except SnapshotRaised (List Symbol)) : Prop :=
  outcome = .ok ((records.filter fun symbol => matchesQuery casefold needle byPrefix symbol && atPath path symbol &&
    ofKind kind symbol).insertionSort fun a b => symbolLe casefold a b = true) ∧
  ∃ found, unfiltered = .ok found ∧ outcome = .ok (found.filter fun symbol => atPath path symbol && ofKind kind symbol)

/-- The key by which found symbols are sorted. -/
def rankKey (casefold : PyStr → PyStr) (s : Symbol) : PyStr ×ₗ PyStr ×ₗ PyStr ×ₗ ℕ :=
  toLex (casefold s.name, toLex (s.qualifiedName, toLex (s.file, s.line)))

theorem symbolLe_iff (s t : Symbol) : symbolLe casefold s t = true ↔ rankKey casefold s ≤ rankKey casefold t := by
  simp [symbolLe, rankKey, Prod.Lex.toLex_le_toLex]

theorem filter_ranked (p : Symbol → Bool) (l : List Symbol) :
    (l.insertionSort fun a b => symbolLe casefold a b = true).filter p =
      (l.filter p).insertionSort fun a b => symbolLe casefold a b = true := by
  refine filter_insertionSort_of_trans ?_ ?_ p l
  · intro a b
    rw [symbolLe_iff, symbolLe_iff]
    exact le_total _ _
  · intro a b c
    rw [symbolLe_iff, symbolLe_iff, symbolLe_iff]
    exact le_trans

theorem normalizeKind_mem (kind : PyStr) : normalizeKind casefold kind ∈ KIND_TO_ID.map Prod.fst := by
  have known := @kindOfId_kindToId casefold kind
  unfold kindOfId at known
  split at known
  · cases known
  · rename_i found there
    cases known
    obtain ⟨e, mem, same⟩ := List.mem_map.1 (Dict.mem_of_lookup there)
    cases e
    cases same
    exact List.mem_map_of_mem mem

theorem normalizeKind_of_mem (folded : ∀ k ∈ KIND_TO_ID.map Prod.fst, casefold k = k) {kind : PyStr}
    (mem : kind ∈ KIND_TO_ID.map Prod.fst) : normalizeKind casefold kind = kind := by
  have table : ∀ k ∈ KIND_TO_ID.map Prod.fst, k ≠ [] ∧ k.strip = k ∧
      ((Dict.find KIND_TO_ID k).bind (Dict.find ID_TO_KIND)) = some k := by decide +kernel
  obtain ⟨filled, bare, there⟩ := table kind mem
  obtain ⟨id, found, there⟩ := Option.bind_eq_some_iff.1 there
  unfold normalizeKind kindToId
  rw [if_neg filled]
  dsimp only
  rw [bare, folded kind mem, found]
  dsimp only
  rw [there, Option.getD_some]

theorem filter_ranked_eq_iff {β : Type} {f : β → Symbol} {p q : β → Bool} {l : List β}
    (stronger : (∀ a ∈ l, p a = true → q a = true) ∨ ∀ a ∈ l, q a = false) :
    ((l.filter p).map f).insertionSort (fun a b => symbolLe casefold a b = true) =
      ((l.filter q).map f).insertionSort (fun a b => symbolLe casefold a b = true) ↔ ∀ a ∈ l, p a = q a := by
  constructor
  · intro same a mem
    have count : l.countP p = l.countP q := by
      have lengths := congrArg List.length same
      rwa [List.length_insertionSort, List.length_insertionSort, List.length_map, List.length_map,
        ← List.countP_eq_length_filter, ← List.countP_eq_length_filter] at lengths
    rcases stronger with imp | never
    · cases there : q a with
      | false =>
        cases here : p a with
        | false => rfl
        | true => rw [imp a mem here] at there; cases there
      | true =>
        cases here : p a with
        | false =>
          have less := countP_add_one_le imp mem here there
          omega
        | true => rfl
    · have zero : l.countP q = 0 := List.countP_eq_zero.2 fun b inside => by rw [never b inside]; exact Bool.false_ne_true
      rw [zero, List.countP_eq_zero] at count
      rw [never a mem]
      exact Bool.eq_false_iff.2 (count a mem)
  · intro agree
    rw [List.filter_congr agree]

/-- `search` of a snapshot of version 1, for the symbols that are decoded from it. -/
def legacySearch (casefold : PyStr → PyStr) (records : List Symbol) : List Symbol :=
  records.insertionSort fun a b => symbolLe casefold a b = true

theorem legacy_agrees_iff (needle : PyStr) (byPrefix : Bool) (path kind : Option PyStr) (records : List Symbol) :
    Agrees casefold needle byPrefix path kind records (.ok (legacySearch casefold records))
        (.ok (legacySearch casefold records)) ↔
      ∀ symbol ∈ records, (matchesQuery casefold needle byPrefix symbol && atPath path symbol && ofKind kind symbol) =
        true := by
  unfold Agrees legacySearch
  constructor
  · rintro ⟨same, -⟩
    have lengths := congrArg List.length (Except.ok.inj same)
    rw [List.length_insertionSort, List.length_insertionSort] at lengths
    exact List.filter_eq_self.1 (List.filter_sublist.eq_of_length lengths.symm)
  · intro all
    refine ⟨by rw [List.filter_eq_self.2 all], _, rfl, ?_⟩
    rw [filter_ranked, List.filter_eq_self.2]
    intro symbol mem
    have holds := all symbol mem
    rw [Bool.and_assoc, Bool.and_eq_true] at holds
    exact holds.2

theorem agrees_of_buildV2 (folded : ∀ k ∈ KIND_TO_ID.map Prod.fst, casefold k = k)
    (distinct : ∀ p, provenance = some p → p.DistinctKeys)
    (built : buildV2 casefold entries relationList provenance = .ok payload) (opened : openSnapshot payload = .ok s)
    (query : PyStr) (byPrefix : Bool) (path kind : Option PyStr) :
    Agrees casefold (casefold query) byPrefix path kind ((sortedSymbols casefold entries).map (readBack casefold))
        (search casefold s query byPrefix) (search casefold s query byPrefix path kind) ↔
      ∀ symbol ∈ entries.flatMap FileEntry.symbols, matchesQuery casefold (casefold query) byPrefix symbol = true →
        atPath path symbol = true → ofKind kind symbol = ofKind kind (readBack casefold symbol) := by
  have all := search_of_buildV2 distinct built opened query byPrefix none none
  have some := search_of_buildV2 distinct built opened query byPrefix path kind
  have kept (p : Symbol → Bool) : ((sortedSymbols casefold entries).map (readBack casefold)).filter p =
      ((sortedSymbols casefold entries).filter fun symbol => p (readBack casefold symbol)).map (readBack casefold) := by
    rw [List.filter_map]
    rfl
  have exact_iff : search casefold s query byPrefix path kind =
      .ok ((((sortedSymbols casefold entries).map (readBack casefold)).filter fun symbol =>
        matchesQuery casefold (casefold query) byPrefix symbol && atPath path symbol && ofKind kind symbol).insertionSort
          fun a b => symbolLe casefold a b = true) ↔
      ∀ symbol ∈ sortedSymbols casefold entries,
        (matchesQuery casefold (casefold query) byPrefix symbol && atPath path symbol && ofKind kind symbol) =
          (matchesQuery casefold (casefold query) byPrefix symbol && atPath path symbol &&
            ofKind kind (readBack casefold symbol)) := by
    rw [some, kept, Except.ok.injEq]
    refine filter_ranked_eq_iff ?_
    -- A kind of the table is read back as itself; no record has another kind.
    cases kind with
    | none => exact .inl fun symbol _ holds => holds
    | some kind =>
      by_cases listed : kind ∈ KIND_TO_ID.map Prod.fst
      · refine .inl fun symbol _ holds => ?_
        rw [Bool.and_eq_true] at holds ⊢
        refine ⟨holds.1, ?_⟩
        have same := of_decide_eq_true (show decide (kind = symbol.kind) = true from holds.2)
        show decide (kind = normalizeKind casefold symbol.kind) = true
        rw [← same, normalizeKind_of_mem folded listed]
        exact decide_eq_true rfl
      · refine .inr fun symbol _ => ?_
        rw [Bool.and_eq_false_iff]
        refine .inr (decide_eq_false fun same : kind = normalizeKind casefold symbol.kind => listed ?_)
        rw [same]
        exact normalizeKind_mem symbol.kind
  have members : (∀ symbol ∈ sortedSymbols casefold entries,
        (matchesQuery casefold (casefold query) byPrefix symbol && atPath path symbol && ofKind kind symbol) =
          (matchesQuery casefold (casefold query) byPrefix symbol && atPath path symbol &&
            ofKind kind (readBack casefold symbol))) ↔
      ∀ symbol ∈ entries.flatMap FileEntry.symbols, matchesQuery casefold (casefold query) byPrefix symbol = true →
        atPath path symbol = true → ofKind kind symbol = ofKind kind (readBack casefold symbol) := by
    refine forall_congr' fun symbol => imp_congr ((List.perm_insertionSort _ _).mem_iff) ?_
    cases matchesQuery casefold (casefold query) byPrefix symbol <;> cases atPath path symbol <;> simp
  unfold Agrees
  rw [exact_iff, members]
  refine and_iff_left_of_imp fun agree => ⟨_, all, ?_⟩
  rw [exact_iff.2 (members.2 agree), filter_ranked, kept, List.filter_map, List.filter_filter]
  congr 3
  refine List.filter_congr fun symbol _ => ?_
  show (matchesQuery casefold (casefold query) byPrefix symbol && atPath path symbol && ofKind kind (readBack casefold symbol)) =
    ((atPath path symbol && ofKind kind (readBack casefold symbol)) &&
      (matchesQuery casefold (casefold query) byPrefix symbol && true && true))
  rw [Bool.and_true, Bool.and_true, Bool.and_assoc, Bool.and_comm]

/-- A search of a snapshot that was written agrees with its records exactly when no symbol that matches the query and the
path is given with the kind that is asked for and read back with another one, or the other way round.  A search of a
snapshot of version 1 agrees with them exactly when all of them match. -/
theorem search_agrees_iff (folded : ∀ k ∈ KIND_TO_ID.map Prod.fst, casefold k = k)
    (distinct : ∀ p, provenance = some p → p.DistinctKeys)
    (built : buildV2 casefold entries relationList provenance = .ok payload) :
    (∃ s records, openSnapshot payload = .ok s ∧ symbols s = .ok records ∧
      ∀ (query : PyStr) (byPrefix : Bool) (path kind : Option PyStr),
        Agrees casefold (casefold query) byPrefix path kind records (search casefold s query byPrefix)
            (search casefold s query byPrefix path kind) ↔
          ∀ symbol ∈ entries.flatMap FileEntry.symbols, matchesQuery casefold (casefold query) byPrefix symbol = true →
            atPath path symbol = true → ofKind kind symbol = ofKind kind (readBack casefold symbol)) ∧
    ∀ (query : PyStr) (byPrefix : Bool) (path kind : Option PyStr) (records : List Symbol),
      Agrees casefold (casefold query) byPrefix path kind records (.ok (legacySearch casefold records))
          (.ok (legacySearch casefold records)) ↔
        ∀ symbol ∈ records, (matchesQuery casefold (casefold query) byPrefix symbol && atPath path symbol &&
          ofKind kind symbol) = true := by
  obtain ⟨s, opened, -, hasSymbols, -⟩ := readBack_of_buildV2 built
  refine ⟨⟨s, _, opened, hasSymbols, fun query byPrefix path kind => ?_⟩, fun query byPrefix path kind records => ?_⟩
  · exact agrees_of_buildV2 folded distinct built opened query byPrefix path kind
  · exact legacy_agrees_iff (casefold query) byPrefix path kind records

theorem folded_asciiCasefold : ∀ k ∈ KIND_TO_ID.map Prod.fst, PyStr.asciiCasefold k = k := by
  decide +kernel

/-- The searches of the snapshot with the delegate. -/
theorem search_agrees_iff_delegate : ∃ payload, buildV2 PyStr.asciiCasefold [delegateEntry] [] none = .ok payload ∧
    (∃ s records, openSnapshot payload = .ok s ∧ symbols s = .ok records ∧
      ∀ (query : PyStr) (byPrefix : Bool) (path kind : Option PyStr),
        Agrees PyStr.asciiCasefold (PyStr.asciiCasefold query) byPrefix path kind records
            (search PyStr.asciiCasefold s query byPrefix) (search PyStr.asciiCasefold s query byPrefix path kind) ↔
          ∀ symbol ∈ [delegateEntry].flatMap FileEntry.symbols,
            matchesQuery PyStr.asciiCasefold (PyStr.asciiCasefold query) byPrefix symbol = true →
              atPath path symbol = true → ofKind kind symbol = ofKind kind (readBack PyStr.asciiCasefold symbol)) := by
  obtain ⟨payload, built⟩ := built_delegate
  exact ⟨payload, built, (search_agrees_iff folded_asciiCasefold (fun _ none => by cases none) built).1⟩

/-- A search for functions does not find the delegate, whose record is that of a function. -/
theorem not_search_agrees_delegate : ¬ ∀ (entries : List FileEntry) (payload : Bytes) (s : OpenSnapshot)
    (records : List Symbol) (query : PyStr) (byPrefix : Bool) (path kind : Option PyStr),
      buildV2 PyStr.asciiCasefold entries [] none = .ok payload → openSnapshot payload = .ok s →
        symbols s = .ok records → Agrees PyStr.asciiCasefold (PyStr.asciiCasefold query) byPrefix path kind records
          (search PyStr.asciiCasefold s query byPrefix) (search PyStr.asciiCasefold s query byPrefix path kind) := by
  intro all
  obtain ⟨payload, built⟩ := built_delegate
  obtain ⟨s, opened, -, hasSymbols, -⟩ := readBack_of_buildV2 built
  obtain ⟨exactly, -⟩ := all _ payload s _ "d" false none (some "function") built opened hasSymbols
  rw [search_of_buildV2 (fun _ none => by cases none) built opened] at exactly
  have lengths := congrArg (fun found : Except SnapshotRaised (List Symbol) => found.toOption.map List.length) exactly
  revert lengths
  decide +kernel

end SnapshotFormat

end SimplicioFast
