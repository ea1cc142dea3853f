import SimplicioFast.Lib.Lines
import SimplicioFast.Lib.Worklist
import SimplicioFast.Snapshot.Basic

/-!
# The invalidation closure

`invalidation_closure` follows the relations of a snapshot backwards from the symbols of the changed
files.  It works on symbol ids, and keeps for each id the last symbol that has it.  The closure of
the symbols themselves (`Affected`) is what it returns exactly when every affected symbol is the last
one with its id (`exact_iff`).

`str.casefold` is a parameter.
-/

namespace SimplicioFast

/-- What `invalidation_closure` returns; `selected` holds the symbols whose ids and qualified names
are the entries `affected_symbol_ids` and `affected_symbols`. -/
structure InvalidationClosure where
  status : PyStr
  reasonCode : PyStr
  changedPaths : List PyStr
  selected : List Symbol
  affectedFiles : List PyStr
  edgeCount : ℕ
  truncated : Bool

namespace InvalidationClosure

/-- The entry `affected_symbol_ids`. -/
def affectedSymbolIds (r : InvalidationClosure) : List PyStr := r.selected.map Symbol.symbolId

/-- The entry `affected_symbols`. -/
def affectedSymbols (r : InvalidationClosure) : List PyStr := r.selected.map Symbol.qualifiedName

end InvalidationClosure

namespace Symbol

/-- The order of the selected symbols: by file, line and qualified name. -/
def keyLe (s t : Symbol) : Bool :=
  s.file < t.file || s.file = t.file &&
    (s.line < t.line || s.line = t.line && s.qualifiedName ≤ t.qualifiedName)

end Symbol

namespace Snapshot

variable (casefold : PyStr → PyStr) (snapshot : Snapshot)

/-- The changed paths with slashes only and none at the ends, sorted and without blank ones. -/
def normalizePaths (changedPaths : List PyStr) : List PyStr :=
  PyStr.sortedSet ((changedPaths.filter fun path => path.strip ≠ []).map fun path =>
    PyStr.stripIf (· = .scalar '/') (PyStr.replace "\\" "/" path))

def byId (id : PyStr) : Option Symbol := snapshot.symbols.reverse.find? fun s => s.symbolId = id

def nameToIds (name : PyStr) : List PyStr :=
  ((snapshot.symbols.filter fun s =>
    casefold s.name = name ∨ casefold s.qualifiedName = name).map Symbol.symbolId).dedup

/-- The symbol ids that a relation starts from. -/
def origins (r : Relation) : List PyStr :=
  (if r.originId ≠ [] then [r.originId] else snapshot.nameToIds casefold (casefold r.origin)).filter
    fun id => (snapshot.byId id).isSome

def destinations (r : Relation) : List PyStr :=
  casefold r.destination :: if r.destinationId ≠ [] then [casefold r.destinationId] else []

def reverse (key : PyStr) : List PyStr :=
  (snapshot.relations.filter fun r => key ∈ destinations casefold r).flatMap
    (snapshot.origins casefold)

/-- The keys under which relations lead to a symbol. -/
def keys (s : Symbol) : List PyStr :=
  [casefold s.symbolId, casefold s.name, casefold s.qualifiedName]

/-- What the loop puts at the end of the frontier for an affected id. -/
def extension (affected : List PyStr) (current : PyStr) : List PyStr :=
  PyStr.sortedSet ((((snapshot.byId current).toList.flatMap (keys casefold)).flatMap
    (snapshot.reverse casefold)).filter fun origin => origin ∉ affected)

/-- The ids of the symbols of the changed files. -/
def frontier (paths : List PyStr) : List PyStr :=
  ((snapshot.symbols.filter fun s => s.file ∈ paths).map Symbol.symbolId).insertionSort (· ≤ ·)

/-- The loop: the affected ids and what is left of the frontier. -/
def closure (paths : List PyStr) (maxSymbols : ℕ) : List PyStr × List PyStr :=
  Worklist.visit (fun id => (snapshot.byId id).isSome) (snapshot.extension casefold) maxSymbols []
    (snapshot.frontier paths)

/-- The symbols that the affected ids stand for, sorted. -/
def selection (paths : List PyStr) (maxSymbols : ℕ) : List Symbol :=
  ((snapshot.closure casefold paths maxSymbols).1.filterMap snapshot.byId).insertionSort
    fun s t => s.keyLe t = true

/-- `invalidation_closure`; `none` stands for the `ValueError` for limits that are not positive. -/
def invalidationClosure (changedPaths : List PyStr) (maxSymbols maxFiles : ℕ) :
    Option InvalidationClosure :=
  if maxSymbols < 1 ∨ maxFiles < 1 then none
  else
    let paths := normalizePaths changedPaths
    let selected := snapshot.selection casefold paths maxSymbols
    let files := PyStr.sortedSet (selected.map Symbol.file)
    let truncated :=
      (snapshot.closure casefold paths maxSymbols).2 ≠ [] || files.length > maxFiles
    some
      { status := if selected = [] then "no_op" else if truncated then "truncated" else "invalidated"
        reasonCode :=
          if selected = [] then "no_changed_symbols"
          else if truncated then "closure_bounded" else "dependency_changed"
        changedPaths := paths
        selected
        affectedFiles := files.take maxFiles
        edgeCount := (snapshot.relations.map fun r => (snapshot.origins casefold r).length).sum
        truncated }

/-! ## The closure of the symbols -/

/-- The symbol is an origin of the relation: by its id if the relation has one, else by its name. -/
def IsOrigin (s : Symbol) (r : Relation) : Prop :=
  if r.originId ≠ [] then s.symbolId = r.originId
  else casefold s.name = casefold r.origin ∨ casefold s.qualifiedName = casefold r.origin

/-- The relation leads to the symbol, by id or by name. -/
def IsDestination (t : Symbol) (r : Relation) : Prop :=
  ∃ key ∈ keys casefold t, key ∈ destinations casefold r

/-- The symbols of the changed files, and all that refer to an affected symbol. -/
inductive Affected (paths : List PyStr) : Symbol → Prop
  | defined {s : Symbol} (mem : s ∈ snapshot.symbols) (changed : s.file ∈ paths) : Affected paths s
  | refers {s t : Symbol} {r : Relation} (affected : Affected paths t)
    (mem : s ∈ snapshot.symbols) (relation : r ∈ snapshot.relations)
    (origin : IsOrigin casefold s r) (destination : IsDestination casefold t r) : Affected paths s

/-- The closure names exactly the affected symbols and their files. -/
structure Exact (paths : List PyStr) (r : InvalidationClosure) : Prop where
  symbols : ∀ s, s ∈ r.selected ↔ snapshot.Affected casefold paths s
  files : ∀ f, f ∈ r.affectedFiles ↔ ∃ s, snapshot.Affected casefold paths s ∧ s.file = f

variable {casefold snapshot} {paths : List PyStr} {id : PyStr} {s t : Symbol} {r : Relation}

theorem mem_of_byId (h : snapshot.byId id = some s) : s ∈ snapshot.symbols ∧ s.symbolId = id :=
  ⟨List.mem_reverse.1 (List.mem_of_find?_eq_some h), by simpa using List.find?_some h⟩

theorem isSome_byId (mem : s ∈ snapshot.symbols) : (snapshot.byId s.symbolId).isSome = true := by
  rw [byId, List.find?_isSome]
  exact ⟨s, List.mem_reverse.2 mem, by simp⟩

theorem mem_origins_iff :
    id ∈ snapshot.origins casefold r ↔
      ∃ s ∈ snapshot.symbols, IsOrigin casefold s r ∧ s.symbolId = id := by
  rw [origins, List.mem_filter]
  unfold IsOrigin
  split_ifs with given
  · rw [List.mem_singleton]
    constructor
    · rintro ⟨rfl, known⟩
      obtain ⟨s, found⟩ := Option.isSome_iff_exists.1 known
      obtain ⟨mem, same⟩ := mem_of_byId found
      exact ⟨s, mem, same, same⟩
    · rintro ⟨s, mem, origin, rfl⟩
      exact ⟨origin, isSome_byId mem⟩
  · simp only [nameToIds, List.mem_dedup, List.mem_map, List.mem_filter, decide_eq_true_eq]
    constructor
    · rintro ⟨⟨s, ⟨mem, origin⟩, rfl⟩, -⟩
      exact ⟨s, mem, origin, rfl⟩
    · rintro ⟨s, mem, origin, rfl⟩
      exact ⟨⟨s, ⟨mem, origin⟩, rfl⟩, isSome_byId mem⟩

/-- One edge of the graph of ids, read backwards. -/
def Edge (casefold : PyStr → PyStr) (snapshot : Snapshot) (current origin : PyStr) : Prop :=
  ∃ t, snapshot.byId current = some t ∧ ∃ r ∈ snapshot.relations, IsDestination casefold t r ∧
    ∃ s ∈ snapshot.symbols, IsOrigin casefold s r ∧ s.symbolId = origin

theorem mem_extension_iff {affected : List PyStr} {current origin : PyStr} :
    origin ∈ snapshot.extension casefold affected current ↔
      Edge casefold snapshot current origin ∧ origin ∉ affected := by
  simp only [extension, PyStr.mem_sortedSet, List.mem_filter, decide_eq_true_eq, List.mem_flatMap,
    Option.mem_toList, reverse, mem_origins_iff]
  refine and_congr_left fun _ => ?_
  constructor
  · rintro ⟨key, ⟨t, found, hkey⟩, r, ⟨mem, hdest⟩, origin⟩
    exact ⟨t, found, r, mem, ⟨key, hkey, hdest⟩, origin⟩
  · rintro ⟨t, found, r, mem, ⟨key, hkey, hdest⟩, origin⟩
    exact ⟨key, ⟨t, found, hkey⟩, r, ⟨mem, hdest⟩, origin⟩

/-- The ids that the loop is to find. -/
abbrev ReachId (casefold : PyStr → PyStr) (snapshot : Snapshot) (paths : List PyStr) :
    PyStr → Prop :=
  Worklist.Reach (fun id => (snapshot.byId id).isSome) (Edge casefold snapshot)
    (snapshot.frontier paths)

theorem mem_frontier_iff :
    id ∈ snapshot.frontier paths ↔ ∃ s ∈ snapshot.symbols, s.file ∈ paths ∧ s.symbolId = id := by
  simp only [frontier, List.mem_insertionSort, List.mem_map, List.mem_filter, decide_eq_true_eq,
    and_assoc]

theorem affected_of_reachId
    (last : ∀ s, snapshot.Affected casefold paths s → snapshot.byId s.symbolId = some s)
    (reach : ReachId casefold snapshot paths id) (found : snapshot.byId id = some s) :
    snapshot.Affected casefold paths s := by
  induction reach generalizing s with
  | start pending known =>
    obtain ⟨t, mem, changed, rfl⟩ := mem_frontier_iff.1 pending
    have affected : snapshot.Affected casefold paths t := .defined mem changed
    rw [last t affected] at found
    cases found
    exact affected
  | step _ edge known ih =>
    obtain ⟨t, found', r, relation, destination, s', mem, origin, rfl⟩ := edge
    have affected : snapshot.Affected casefold paths s' :=
      .refers (ih found') mem relation origin destination
    rw [last s' affected] at found
    cases found
    exact affected

theorem reachId_of_affected
    (last : ∀ s, snapshot.Affected casefold paths s → snapshot.byId s.symbolId = some s)
    (affected : snapshot.Affected casefold paths s) :
    ReachId casefold snapshot paths s.symbolId := by
  induction affected with
  | defined mem changed => exact .start (mem_frontier_iff.2 ⟨_, mem, changed, rfl⟩) (isSome_byId mem)
  | refers affected mem relation origin destination ih =>
    exact .step ih ⟨_, last _ affected, _, relation, destination, _, mem, origin, rfl⟩
      (isSome_byId mem)

theorem invalidationClosure_eq_some {changedPaths : List PyStr} {maxSymbols maxFiles : ℕ}
    {r : InvalidationClosure}
    (h : snapshot.invalidationClosure casefold changedPaths maxSymbols maxFiles = some r)
    (complete : r.truncated = false) :
    r.selected = snapshot.selection casefold (normalizePaths changedPaths) maxSymbols ∧
      r.affectedFiles = PyStr.sortedSet (r.selected.map Symbol.file) ∧
      (snapshot.closure casefold (normalizePaths changedPaths) maxSymbols).2 = [] := by
  rw [invalidationClosure] at h
  split_ifs at h
  cases h
  simp only [Bool.or_eq_false_iff, decide_eq_false_iff_not, not_not, not_lt] at complete
  exact ⟨rfl, List.take_of_length_le complete.2, complete.1⟩

theorem mem_closure_iff {maxSymbols : ℕ}
    (finished : (snapshot.closure casefold paths maxSymbols).2 = []) :
    id ∈ (snapshot.closure casefold paths maxSymbols).1 ↔ ReachId casefold snapshot paths id := by
  unfold closure at finished ⊢
  exact Worklist.mem_visit_iff (fun _ _ _ => mem_extension_iff) finished

theorem mem_selection_iff {maxSymbols : ℕ}
    (finished : (snapshot.closure casefold paths maxSymbols).2 = []) :
    s ∈ snapshot.selection casefold paths maxSymbols ↔
      ∃ id, ReachId casefold snapshot paths id ∧ snapshot.byId id = some s := by
  rw [selection, List.mem_insertionSort, List.mem_filterMap]
  exact exists_congr fun id => and_congr_left fun _ => mem_closure_iff finished

/-- A closure that is not truncated is exact precisely when every affected symbol is the last one
with its id. -/
theorem exact_iff {changedPaths : List PyStr} {maxSymbols maxFiles : ℕ} {r : InvalidationClosure}
    (h : snapshot.invalidationClosure casefold changedPaths maxSymbols maxFiles = some r)
    (complete : r.truncated = false) :
    snapshot.Exact casefold (normalizePaths changedPaths) r ↔
      ∀ s, snapshot.Affected casefold (normalizePaths changedPaths) s →
        snapshot.byId s.symbolId = some s := by
  obtain ⟨selected, files, finished⟩ := invalidationClosure_eq_some h complete
  generalize normalizePaths changedPaths = paths at selected finished ⊢
  have mem_selected {s : Symbol} := mem_selection_iff (s := s) finished
  rw [← selected] at mem_selected
  constructor
  · intro exactly s affected
    obtain ⟨id, -, found⟩ := mem_selected.1 ((exactly.symbols s).2 affected)
    rw [(mem_of_byId found).2]
    exact found
  · intro last
    have symbols : ∀ s, s ∈ r.selected ↔ snapshot.Affected casefold paths s := by
      intro s
      rw [mem_selected]
      constructor
      · rintro ⟨id, reach, found⟩
        exact affected_of_reachId last reach found
      · exact fun affected => ⟨_, reachId_of_affected last affected, last s affected⟩
    refine ⟨symbols, fun f => ?_⟩
    rw [files, PyStr.mem_sortedSet, List.mem_map]
    exact exists_congr fun s => and_congr_left fun _ => symbols s

theorem mem_of_affected (affected : snapshot.Affected casefold paths s) : s ∈ snapshot.symbols := by
  cases affected with
  | defined mem => exact mem
  | refers _ mem => exact mem

/-- Two functions `f` and `g` with the given ids in the files `a` and `b`. -/
def functions (suffix id id' : PyStr) : List Symbol :=
  [{ name := "f", qualifiedName := "f", kind := "function", file := "a" ++ suffix, line := 1
     endLine := 2, symbolId := id },
    { name := "g", qualifiedName := "g", kind := "function", file := "b" ++ suffix, line := 1
      endLine := 2, symbolId := id' }]

/-- A snapshot in which `g` calls `f`. -/
def caller : Snapshot where
  files := [("a.py", []), ("b.py", [])]
  symbols := functions ".py" "f1" "9e"
  relations :=
    [{ origin := "g", destination := "f", kind := "call", confidence := .make false 8 1
       originId := "9e" }]

/-- A change of the called function affects both. -/
theorem exact_caller :
    ∃ r, caller.invalidationClosure PyStr.asciiCasefold ["a.py"] 10 10 = some r ∧
      caller.Exact PyStr.asciiCasefold (normalizePaths ["a.py"]) r := by
  have returned : caller.invalidationClosure PyStr.asciiCasefold ["a.py"] 10 10 = some _ := rfl
  refine ⟨_, returned, (exact_iff returned (by decide)).2 fun s affected => ?_⟩
  have last : ∀ s ∈ caller.symbols, caller.byId s.symbolId = some s := by decide
  exact last s (mem_of_affected affected)

/-- A snapshot of two functions as the lexical adapters leave them, without a symbol id: both are
read with the id of zeros. -/
def withoutIds : Snapshot where
  files := [("a.ts", []), ("b.ts", [])]
  symbols :=
    functions ".ts" (.ofChars (List.replicate 64 '0')) (.ofChars (List.replicate 64 '0'))
  relations := []

/-- Of two functions with one id the closure knows the second only. -/
theorem not_exact_withoutIds :
    ∃ r, withoutIds.invalidationClosure PyStr.asciiCasefold ["a.ts"] 10 10 = some r ∧
      r.truncated = false ∧ r.affectedFiles = ["b.ts"] ∧
      ¬ withoutIds.Exact PyStr.asciiCasefold (normalizePaths ["a.ts"]) r := by
  have returned : withoutIds.invalidationClosure PyStr.asciiCasefold ["a.ts"] 10 10 = some _ := rfl
  refine ⟨_, returned, by decide, by decide, fun exactly => ?_⟩
  have affected : withoutIds.Affected PyStr.asciiCasefold (normalizePaths ["a.ts"])
      (withoutIds.symbols.get ⟨0, by decide⟩) := .defined (List.get_mem _ _) (by decide)
  have held := (exactly.files _).2 ⟨_, affected, rfl⟩
  revert held
  decide

end Snapshot

end SimplicioFast
