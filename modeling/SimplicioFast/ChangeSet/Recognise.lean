import SimplicioFast.ChangeSet.Validate

/-!
# Recognising the result of a change set

`validate` recognises a tree as the result of a change set when every operation is idempotent on it.
On the tree in which its own simulation ends it does so exactly for the change sets whose operations
agree on every path (`recognised_iff`): no path is emptied by one operation and filled by another,
and what a path is filled with in the end has the after hash of every operation that fills it.
-/

namespace SimplicioFast

/-- The contents of the paths of a tree. -/
abbrev Contents := PyStr → Option Bytes

namespace ChangeOperation

/-- The path that an operation gives a content. -/
def fills (o : ChangeOperation) : Option PyStr :=
  match o.op with
  | .create | .replaceRange => some o.path
  | .rename => some o.destPath
  | .delete => none

/-- The path that an operation takes away. -/
def empties (o : ChangeOperation) : Option PyStr :=
  match o.op with
  | .create | .replaceRange => none
  | .rename | .delete => some o.path

/-- The test by which `validate` finds an operation idempotent. -/
def Done (o : ChangeOperation) (contents : Contents) : Prop :=
  (∀ p ∈ o.fills, ∃ b, contents p = some b ∧ ChangeSet.matchesHash b o.afterSha256 = true) ∧
    ∀ p ∈ o.empties, contents p = none

/-- What an operation makes of the content of the path that it fills; `moved` is the content of the
source of a rename. -/
def fill (codecs : Codecs) (o : ChangeOperation) (moved : Option Bytes) :
    Option Bytes → Option Bytes
  | none => match o.op with
    | .create => o.content
    | .rename => moved
    | _ => none
  | some b =>
    if o.op = .replaceRange ∧ ChangeSet.matchesHash b o.afterSha256 = false then
      (ChangeSet.replace codecs b o).toOption
    else some b

end ChangeOperation

namespace ChangeSet

variable {codecs : Codecs} {tree : Tree} {state state' : SimState} {o : ChangeOperation}
  {os : List ChangeOperation} {status : OpStatus} {p q : PyStr} {statuses : List (PyStr × OpStatus)}

/-! ## Looking at the simulated tree -/

/-- The paths that the simulation has changed can be read in the tree. -/
def Readable (tree : Tree) (state : SimState) : Prop :=
  ∀ p, state.get? p ≠ none → ∃ x, tree.read p = .ok x

theorem readable_empty (tree : Tree) : Readable tree .empty := fun _ h => (h rfl).elim

theorem read_of_look {x : Option Bytes} (h : look tree state p = .ok x) :
    ∃ y, tree.read p = .ok y := by
  obtain ⟨y, hy, -⟩ := bind_ok.1 h
  exact ⟨y, hy⟩

theorem look_of_read (state : SimState) {y : Option Bytes} (h : tree.read p = .ok y) :
    look tree state p = .ok ((state.get? p).getD y) := by
  rw [look, h]
  rfl

theorem Readable.set (h : Readable tree state) {y : Option Bytes} (hp : tree.read p = .ok y)
    (x : Option Bytes) : Readable tree (state.set p x) := by
  intro q hq
  rw [Dict.get?_set] at hq
  split_ifs at hq with e
  · rw [e]
    exact ⟨y, hp⟩
  · exact h q hq

/-- What the simulation holds at a path; nothing where the path cannot be read. -/
def contents (tree : Tree) (state : SimState) : Contents := fun p =>
  (look tree state p).toOption.join

theorem contents_of_look {x : Option Bytes} (h : look tree state p = .ok x) :
    contents tree state p = x := by
  rw [contents, h]
  rfl

theorem contents_set {y : Option Bytes} (h : tree.read p = .ok y) (x : Option Bytes) :
    contents tree (state.set p x) q = if q = p then x else contents tree state q := by
  split_ifs with e
  · subst e
    rw [contents_of_look (look_of_read _ h), Dict.get?_set_self]
    rfl
  · rw [contents, look, Dict.get?_set_of_ne _ _ e, contents, look]

theorem look_after (h : Readable tree state) (p : PyStr) :
    look (tree.after state) .empty p = look tree state p := by
  cases hp : state.get? p with
  | none =>
    simp only [look, Tree.after, hp]
    rfl
  | some x =>
    obtain ⟨y, hy⟩ := h p (by rw [hp]; exact Option.some_ne_none x)
    rw [look_of_read _ hy, hp]
    simp only [look, Tree.after, hp]
    rfl

theorem contents_after (h : Readable tree state) :
    contents (tree.after state) .empty = contents tree state :=
  funext fun p => by rw [contents, look_after h, contents]

/-! ## One operation -/

/-- What one round of the loop can do. -/
inductive Step (codecs : Codecs) (tree : Tree) (state : SimState) (o : ChangeOperation) :
    SimState → OpStatus → Prop
  | created (op : o.op = .create) (current : look tree state o.path = .ok none) :
    Step codecs tree state o (state.set o.path o.content) .ready
  | createDone (op : o.op = .create) {b : Bytes} (current : look tree state o.path = .ok (some b))
    (done : matchesHash b o.afterSha256 = true) : Step codecs tree state o state .idempotent
  | replaced (op : o.op = .replaceRange) {b updated : Bytes}
    (current : look tree state o.path = .ok (some b))
    (stale : matchesHash b o.afterSha256 = false) (result : replace codecs b o = .ok updated)
    (done : matchesHash updated o.afterSha256 = true) :
    Step codecs tree state o (state.set o.path (some updated)) .ready
  | replaceDone (op : o.op = .replaceRange) {b : Bytes}
    (current : look tree state o.path = .ok (some b))
    (done : matchesHash b o.afterSha256 = true) : Step codecs tree state o state .idempotent
  | renamed (op : o.op = .rename) {b : Bytes} (current : look tree state o.path = .ok (some b))
    (destination : look tree state o.destPath = .ok none) :
    Step codecs tree state o ((state.set o.destPath (some b)).set o.path none) .ready
  | renameDone (op : o.op = .rename) {b : Bytes} (current : look tree state o.path = .ok none)
    (destination : look tree state o.destPath = .ok (some b))
    (done : matchesHash b o.afterSha256 = true) : Step codecs tree state o state .idempotent
  | deleted (op : o.op = .delete) {b : Bytes} (current : look tree state o.path = .ok (some b)) :
    Step codecs tree state o (state.set o.path none) .ready
  | deleteDone (op : o.op = .delete) (current : look tree state o.path = .ok none) :
    Step codecs tree state o state .idempotent

theorem step_of_simulateCreate (op : o.op = .create) {current : Option Bytes}
    (hc : look tree state o.path = .ok current)
    (h : simulateCreate o state current = .ok (state', status)) :
    Step codecs tree state o state' status := by
  unfold simulateCreate at h
  split at h
  · cases h
    exact .created op hc
  · split_ifs at h with done
    cases h
    exact .createDone op hc done

theorem step_of_simulateReplace (op : o.op = .replaceRange) {current : Option Bytes}
    (hc : look tree state o.path = .ok current)
    (h : simulateReplace codecs o state current = .ok (state', status)) :
    Step codecs tree state o state' status := by
  unfold simulateReplace at h
  split at h
  · cases h
  · split_ifs at h with done before
    · cases h
      exact .replaceDone op hc done
    · obtain ⟨updated, result, h⟩ := bind_ok.1 h
      split_ifs at h with done'
      cases h
      exact .replaced op hc (Bool.not_eq_true _ ▸ done) result done'

theorem step_of_simulateRename (op : o.op = .rename) {current : Option Bytes}
    (hc : look tree state o.path = .ok current)
    (h : simulateRename tree o state current = .ok (state', status)) :
    Step codecs tree state o state' status := by
  unfold simulateRename at h
  split at h
  · obtain ⟨destination, hd, h⟩ := bind_ok.1 h
    split_ifs at h with done
    cases h
    cases destination with
    | none => cases done
    | some b => exact .renameDone op hc hd done
  · split_ifs at h
    obtain ⟨destination, hd, h⟩ := bind_ok.1 h
    split_ifs at h with taken
    cases h
    rw [ne_eq, not_not] at taken
    subst taken
    exact .renamed op hc hd

theorem step_of_simulateDelete (op : o.op = .delete) {current : Option Bytes}
    (hc : look tree state o.path = .ok current)
    (h : simulateDelete o state current = .ok (state', status)) :
    Step codecs tree state o state' status := by
  unfold simulateDelete at h
  split at h
  · cases h
    exact .deleteDone op hc
  · split_ifs at h
    cases h
    exact .deleted op hc

theorem step_of_simulateOp (h : simulateOp codecs tree state o = .ok (state', status)) :
    Step codecs tree state o state' status := by
  obtain ⟨current, hc, h⟩ := bind_ok.1 h
  cases op : o.op <;> rw [op] at h
  · exact step_of_simulateCreate op hc h
  · exact step_of_simulateReplace op hc h
  · exact step_of_simulateRename op hc h
  · exact step_of_simulateDelete op hc h

theorem simulateOp_of_done (codecs : Codecs) (done : o.Done (contents tree state))
    (path : ∃ x, tree.read o.path = .ok x)
    (dest : o.op = .rename → ∃ x, tree.read o.destPath = .ok x) :
    simulateOp codecs tree state o = .ok (state, .idempotent) := by
  obtain ⟨x, hx⟩ := path
  have hlook := look_of_read state hx
  have hcontents := contents_of_look hlook
  generalize (state.get? o.path).getD x = current at hlook hcontents
  rw [simulateOp, hlook]
  obtain ⟨filled, emptied⟩ := done
  cases op : o.op
  case create =>
    obtain ⟨b, hb, matched⟩ := filled o.path (by simp [ChangeOperation.fills, op])
    rw [hcontents] at hb
    subst hb
    exact if_pos matched
  case replaceRange =>
    obtain ⟨b, hb, matched⟩ := filled o.path (by simp [ChangeOperation.fills, op])
    rw [hcontents] at hb
    subst hb
    exact if_pos matched
  case rename =>
    obtain ⟨y, hy⟩ := dest op
    have hdest := look_of_read state hy
    obtain ⟨b, hb, matched⟩ := filled o.destPath (by simp [ChangeOperation.fills, op])
    have gone := emptied o.path (by simp [ChangeOperation.empties, op])
    rw [contents_of_look hdest] at hb
    rw [hcontents] at gone
    subst gone
    rw [hb] at hdest
    change simulateRename tree o state none = _
    exact bind_ok.2 ⟨_, hdest, if_pos matched⟩
  case delete =>
    have gone := emptied o.path (by simp [ChangeOperation.empties, op])
    rw [hcontents] at gone
    subst gone
    rfl

theorem Step.done (h : Step codecs tree state o state' .idempotent) :
    state' = state ∧ o.Done (contents tree state) := by
  cases h with
  | createDone op current done =>
    refine ⟨rfl, ?_, ?_⟩ <;> simp only [ChangeOperation.fills, ChangeOperation.empties, op]
    · rintro p ⟨⟩
      exact ⟨_, contents_of_look current, done⟩
    · rintro p ⟨⟩
  | replaceDone op current done =>
    refine ⟨rfl, ?_, ?_⟩ <;> simp only [ChangeOperation.fills, ChangeOperation.empties, op]
    · rintro p ⟨⟩
      exact ⟨_, contents_of_look current, done⟩
    · rintro p ⟨⟩
  | renameDone op current destination done =>
    refine ⟨rfl, ?_, ?_⟩ <;> simp only [ChangeOperation.fills, ChangeOperation.empties, op]
    · rintro p ⟨⟩
      exact ⟨_, contents_of_look destination, done⟩
    · rintro p ⟨⟩
      exact contents_of_look current
  | deleteDone op current =>
    refine ⟨rfl, ?_, ?_⟩ <;> simp only [ChangeOperation.fills, ChangeOperation.empties, op]
    · rintro p ⟨⟩
    · rintro p ⟨⟩
      exact contents_of_look current

theorem Step.reads (h : Step codecs tree state o state' status) :
    (∃ x, tree.read o.path = .ok x) ∧
      (o.op = .rename → ∃ x, tree.read o.destPath = .ok x) := by
  cases h with
  | created op current | createDone op current | replaced op current | replaceDone op current
  | deleted op current | deleteDone op current =>
    exact ⟨read_of_look current, fun e => by rw [op] at e; cases e⟩
  | renamed op current destination | renameDone op current destination =>
    exact ⟨read_of_look current, fun _ => read_of_look destination⟩

theorem Step.readable (h : Step codecs tree state o state' status) (hr : Readable tree state) :
    Readable tree state' := by
  obtain ⟨⟨x, path⟩, dest⟩ := h.reads
  cases h with
  | created | replaced | deleted => exact hr.set path _
  | renamed op =>
    obtain ⟨y, dest⟩ := dest op
    exact (hr.set dest _).set path _
  | createDone | replaceDone | renameDone | deleteDone => exact hr

theorem Step.contents (h : Step codecs tree state o state' status) (q : PyStr) :
    ChangeSet.contents tree state' q =
      if o.empties = some q then none
      else if o.fills = some q then
        o.fill codecs (ChangeSet.contents tree state o.path) (ChangeSet.contents tree state q)
      else ChangeSet.contents tree state q := by
  obtain ⟨⟨x, path⟩, dest⟩ := h.reads
  cases h with
  | created op current =>
    rw [contents_set path]
    simp only [ChangeOperation.empties, ChangeOperation.fills, op, reduceCtorEq, if_false,
      Option.some.injEq, eq_comm (a := o.path)]
    split_ifs with e
    · rw [e, contents_of_look current]
      simp only [ChangeOperation.fill, op]
    · rfl
  | createDone op current done =>
    simp only [ChangeOperation.empties, ChangeOperation.fills, op, reduceCtorEq, if_false,
      Option.some.injEq, eq_comm (a := o.path)]
    split_ifs with e
    · rw [e, contents_of_look current, ChangeOperation.fill, if_neg]
      simp [op]
    · rfl
  | replaced op current stale result done =>
    rw [contents_set path]
    simp only [ChangeOperation.empties, ChangeOperation.fills, op, reduceCtorEq, if_false,
      Option.some.injEq, eq_comm (a := o.path)]
    split_ifs with e
    · rw [e, contents_of_look current, ChangeOperation.fill, if_pos ⟨op, stale⟩, result]
      rfl
    · rfl
  | replaceDone op current done =>
    simp only [ChangeOperation.empties, ChangeOperation.fills, op, reduceCtorEq, if_false,
      Option.some.injEq, eq_comm (a := o.path)]
    split_ifs with e
    · rw [e, contents_of_look current, ChangeOperation.fill, if_neg]
      simp [done]
    · rfl
  | renamed op current destination =>
    obtain ⟨y, dest⟩ := dest op
    rw [contents_set path, contents_set dest]
    simp only [ChangeOperation.empties, ChangeOperation.fills, op, Option.some.injEq,
      eq_comm (a := o.path), eq_comm (a := o.destPath)]
    split_ifs with e e'
    · rfl
    · rw [e', contents_of_look destination, contents_of_look current]
      simp only [ChangeOperation.fill, op]
    · rfl
  | renameDone op current destination done =>
    simp only [ChangeOperation.empties, ChangeOperation.fills, op, Option.some.injEq,
      eq_comm (a := o.path), eq_comm (a := o.destPath)]
    split_ifs with e e'
    · rw [e, contents_of_look current]
    · rw [e', contents_of_look destination, ChangeOperation.fill, if_neg]
      simp [op]
    · rfl
  | deleted op current =>
    rw [contents_set path]
    simp only [ChangeOperation.empties, ChangeOperation.fills, op, Option.some.injEq, reduceCtorEq,
      if_false, eq_comm (a := o.path)]
  | deleteDone op current =>
    simp only [ChangeOperation.empties, ChangeOperation.fills, op, Option.some.injEq, reduceCtorEq,
      if_false, eq_comm (a := o.path)]
    split_ifs with e
    · rw [e, contents_of_look current]
    · rfl

theorem Step.fill_eq (h : Step codecs tree state o state' status) {initial : Option Bytes}
    (source : o.op = .rename →
      ChangeSet.contents tree state o.path = none ∨ ChangeSet.contents tree state o.path = initial)
    (hq : o.fills = some q) :
    o.fill codecs (ChangeSet.contents tree state o.path) (ChangeSet.contents tree state q) =
      o.fill codecs initial (ChangeSet.contents tree state q) := by
  cases hc : ChangeSet.contents tree state q with
  | some b => rfl
  | none =>
    cases op : o.op <;> simp only [ChangeOperation.fill, op]
    simp only [ChangeOperation.fills, op, Option.some.injEq] at hq
    subst hq
    rcases source op with gone | same
    · exfalso
      cases h with
      | created op' | createDone op' | replaced op' | replaceDone op' | deleted op'
      | deleteDone op' =>
        rw [op] at op'
        cases op'
      | renamed _ current =>
        rw [contents_of_look current] at gone
        cases gone
      | renameDone _ _ destination =>
        rw [contents_of_look destination] at hc
        cases hc
    · exact same

/-! ## The whole change set -/

theorem simulate_cons (h : simulate codecs tree state (o :: os) = .ok (state', statuses)) :
    ∃ next status rest, Step codecs tree state o next status ∧
      simulate codecs tree next os = .ok (state', rest) ∧ statuses = (o.path, status) :: rest := by
  obtain ⟨⟨next, status⟩, hop, h⟩ := bind_ok.1 h
  obtain ⟨⟨last, rest⟩, hrest, h⟩ := bind_ok.1 h
  cases h
  exact ⟨next, status, rest, step_of_simulateOp hop, hrest, rfl⟩

theorem simulate_reads (h : simulate codecs tree state os = .ok (state', statuses)) :
    ∀ o ∈ os, (∃ x, tree.read o.path = .ok x) ∧
      (o.op = .rename → ∃ x, tree.read o.destPath = .ok x) := by
  induction os generalizing state statuses with
  | nil => intro o mem; cases mem
  | cons o os ih =>
    obtain ⟨next, status, rest, step, hrest, -⟩ := simulate_cons h
    intro o' mem
    rcases List.mem_cons.1 mem with rfl | mem
    · exact step.reads
    · exact ih hrest o' mem

theorem simulate_readable (h : simulate codecs tree state os = .ok (state', statuses))
    (hr : Readable tree state) : Readable tree state' := by
  induction os generalizing state statuses with
  | nil =>
    cases h
    exact hr
  | cons o os ih =>
    obtain ⟨next, status, rest, step, hrest, -⟩ := simulate_cons h
    exact ih hrest (step.readable hr)

theorem simulate_idempotent_iff (codecs : Codecs)
    (reads : ∀ o ∈ os, (∃ x, tree.read o.path = .ok x) ∧
      (o.op = .rename → ∃ x, tree.read o.destPath = .ok x)) :
    (∃ state' statuses, simulate codecs tree state os = .ok (state', statuses) ∧
        statuses.all (fun s => s.2 = .idempotent) = true) ↔
      ∀ o ∈ os, o.Done (contents tree state) := by
  induction os with
  | nil =>
    constructor
    · intro _ o mem
      cases mem
    · exact fun _ => ⟨_, _, rfl, rfl⟩
  | cons o os ih =>
    have rest := ih fun o' mem => reads o' (List.mem_cons_of_mem _ mem)
    constructor
    · rintro ⟨state', statuses, h, all⟩
      obtain ⟨next, status, tail, step, htail, rfl⟩ := simulate_cons h
      rw [List.all_cons, Bool.and_eq_true, decide_eq_true_eq] at all
      obtain ⟨rfl, all⟩ := all
      obtain ⟨rfl, done⟩ := step.done
      intro o' mem
      rcases List.mem_cons.1 mem with rfl | mem
      · exact done
      · exact rest.1 ⟨state', tail, htail, all⟩ o' mem
    · intro done
      obtain ⟨state', statuses, h, all⟩ :=
        rest.2 fun o' mem => done o' (List.mem_cons_of_mem _ mem)
      have first := simulateOp_of_done codecs (done o List.mem_cons_self)
        (reads o List.mem_cons_self).1 (reads o List.mem_cons_self).2
      refine ⟨state', (o.path, .idempotent) :: statuses, ?_, ?_⟩
      · rw [simulate]
        exact bind_ok.2 ⟨_, first, bind_ok.2 ⟨_, h, rfl⟩⟩
      · rw [List.all_cons, all]
        rfl

/-- What the operations make of one path, starting from the contents `initial`: created or moved
content, changed by one replace-range after the other. -/
def postImage (codecs : Codecs) (initial : Contents) (os : List ChangeOperation) (q : PyStr)
    (content : Option Bytes) : Option Bytes :=
  os.foldl (fun content o =>
    if o.fills = some q then o.fill codecs (initial o.path) content else content) content

theorem contents_of_not_filled (h : simulate codecs tree state os = .ok (state', statuses))
    (unfilled : ∀ o ∈ os, o.fills ≠ some p) :
    (contents tree state' p = none ∨ contents tree state' p = contents tree state p) ∧
      ((∃ o ∈ os, o.empties = some p) → contents tree state' p = none) ∧
      (contents tree state p = none → contents tree state' p = none) := by
  induction os generalizing state statuses with
  | nil =>
    cases h
    refine ⟨.inr rfl, ?_, id⟩
    rintro ⟨o, mem, -⟩
    cases mem
  | cons o os ih =>
    obtain ⟨next, status, rest, step, hrest, -⟩ := simulate_cons h
    obtain ⟨same, emptied, gone⟩ := ih hrest fun o' mem => unfilled o' (List.mem_cons_of_mem _ mem)
    have first := step.contents p
    rw [if_neg (unfilled o List.mem_cons_self)] at first
    by_cases he : o.empties = some p
    · rw [if_pos he] at first
      exact ⟨.inl (gone first), fun _ => gone first, fun _ => gone first⟩
    · rw [if_neg he] at first
      rw [first] at same gone
      refine ⟨same, ?_, gone⟩
      rintro ⟨o', mem, he'⟩
      rcases List.mem_cons.1 mem with rfl | mem
      · exact absurd he' he
      · exact emptied ⟨o', mem, he'⟩

theorem contents_of_filled {initial : Contents}
    (h : simulate codecs tree state os = .ok (state', statuses))
    (apart : ∀ o ∈ os, ∀ o' ∈ os, ∀ p, o.empties = some p → o'.fills ≠ some p)
    (sources : ∀ o ∈ os, o.op = .rename →
      contents tree state o.path = none ∨ contents tree state o.path = initial o.path)
    (kept : ∀ o ∈ os, o.empties ≠ some q) :
    contents tree state' q = postImage codecs initial os q (contents tree state q) := by
  induction os generalizing state statuses with
  | nil =>
    cases h
    rfl
  | cons o os ih =>
    obtain ⟨next, status, rest, step, hrest, -⟩ := simulate_cons h
    have first := step.contents q
    rw [if_neg (kept o List.mem_cons_self)] at first
    have sources' : ∀ o' ∈ os, o'.op = .rename →
        contents tree next o'.path = none ∨ contents tree next o'.path = initial o'.path := by
      intro o' mem op
      have emptied : o'.empties = some o'.path := by simp only [ChangeOperation.empties, op]
      have unfilled := apart o' (List.mem_cons_of_mem _ mem) o List.mem_cons_self _ emptied
      rw [step.contents, if_neg unfilled]
      split_ifs
      · exact .inl rfl
      · exact sources o' (List.mem_cons_of_mem _ mem) op
    rw [ih hrest (fun o' mem o'' mem' => apart o' (List.mem_cons_of_mem _ mem) o''
      (List.mem_cons_of_mem _ mem')) sources' fun o' mem => kept o' (List.mem_cons_of_mem _ mem),
      postImage, postImage, List.foldl_cons, first]
    congr 1
    split_ifs with hf
    · exact step.fill_eq (sources o List.mem_cons_self) hf
    · rfl

end ChangeSet

namespace BinaryChangeSet

open ChangeSet

variable {codecs : Codecs} {c : BinaryChangeSet} {tree : Tree} {state : SimState}
  {statuses : List (PyStr × OpStatus)}

/-- The operations agree on every path: none is emptied by one operation and filled by another, and
what a path is filled with in the end has the after hash of every operation that fills it. -/
structure Recognisable (codecs : Codecs) (c : BinaryChangeSet) (tree : Tree) : Prop where
  apart : ∀ o ∈ c.operations, ∀ o' ∈ c.operations, ∀ p, o.empties = some p → o'.fills ≠ some p
  agree : ∀ o ∈ c.operations, ∀ q, o.fills = some q →
    ∃ b, postImage codecs (contents tree .empty) c.operations q (contents tree .empty q) = some b ∧
      matchesHash b o.afterSha256 = true

theorem done_iff_recognisable (h : c.simulation codecs tree = .ok (state, statuses)) :
    (∀ o ∈ c.operations, o.Done (contents tree state)) ↔ c.Recognisable codecs tree := by
  constructor
  · intro done
    have apart : ∀ o ∈ c.operations, ∀ o' ∈ c.operations, ∀ p, o.empties = some p →
        o'.fills ≠ some p := by
      intro o mem o' mem' p he hf
      obtain ⟨b, hb, -⟩ := (done o' mem').1 p hf
      rw [(done o mem).2 p he] at hb
      cases hb
    refine ⟨apart, fun o mem q hf => ?_⟩
    rw [← contents_of_filled h apart (fun _ _ _ => .inr rfl) fun o' mem' he =>
      apart o' mem' o mem q he hf]
    exact (done o mem).1 q hf
  · rintro ⟨apart, agree⟩ o mem
    refine ⟨fun q hf => ?_, fun p he => ?_⟩
    · rw [contents_of_filled h apart (fun _ _ _ => .inr rfl) fun o' mem' he =>
        apart o' mem' o mem q he hf]
      exact agree o mem q hf
    · exact (contents_of_not_filled h fun o' mem' => apart o mem o' mem' p he).2.1 ⟨o, mem, he⟩

theorem recognised_iff (h : c.simulation codecs tree = .ok (state, statuses)) :
    (∃ state' statuses', c.simulation codecs (tree.after state) = .ok (state', statuses') ∧
        statuses'.all (fun s => s.2 = .idempotent) = true) ↔ c.Recognisable codecs tree := by
  have readable := simulate_readable h (readable_empty tree)
  rw [← done_iff_recognisable h, ← contents_after readable]
  refine simulate_idempotent_iff codecs fun o mem => ?_
  have after {p : PyStr} (hp : ∃ x, tree.read p = .ok x) : ∃ x, (tree.after state).read p = .ok x := by
    obtain ⟨x, hx⟩ := hp
    have found := look_after readable p
    rw [look_of_read _ hx] at found
    exact read_of_look found
  obtain ⟨path, dest⟩ := simulate_reads h o mem
  exact ⟨after path, fun op => after (dest op)⟩

theorem validate_eq_ok_iff {leaseId fencingToken : Option PyStr} {v : Validation} :
    c.validate codecs tree leaseId fencingToken = .ok v ↔
      checkRepository c tree = .ok () ∧ checkBinding "lease_mismatch" c.leaseId leaseId = .ok () ∧
        checkBinding "fence_mismatch" c.fencingToken fencingToken = .ok () ∧
        c.paths.forM tree.safe = .ok () ∧
        ∃ state statuses, c.simulation codecs tree = .ok (state, statuses) ∧
          ∃ id, c.changesetId codecs = .ok id ∧ v = ⟨id, statuses⟩ := by
  simp only [validate, bind_ok, simulation]
  constructor
  · rintro ⟨_, repository, _, lease, _, fence, _, safe, ⟨state, statuses⟩, h, id, hid, e⟩
    cases e
    exact ⟨repository, lease, fence, safe, state, statuses, h, id, hid, rfl⟩
  · rintro ⟨repository, lease, fence, safe, state, statuses, h, id, hid, rfl⟩
    exact ⟨_, repository, _, lease, _, fence, _, safe, (state, statuses), h, id, hid, rfl⟩

/-- `validate` recognises the tree in which its own simulation ends exactly when the operations of
the change set agree. -/
theorem validate_after_iff {leaseId fencingToken : Option PyStr} {v : Validation}
    (valid : c.validate codecs tree leaseId fencingToken = .ok v)
    (h : c.simulation codecs tree = .ok (state, statuses)) :
    (∃ v', c.validate codecs (tree.after state) leaseId fencingToken = .ok v' ∧
        v'.idempotent = true) ↔ c.Recognisable codecs tree := by
  obtain ⟨repository, lease, fence, safe, -, -, -, id, hid, -⟩ := validate_eq_ok_iff.1 valid
  rw [← recognised_iff h]
  constructor
  · rintro ⟨v', valid', idempotent⟩
    obtain ⟨-, -, -, -, state', statuses', h', id', -, rfl⟩ := validate_eq_ok_iff.1 valid'
    exact ⟨state', statuses', h', idempotent⟩
  · rintro ⟨state', statuses', h', idempotent⟩
    exact ⟨⟨id, statuses'⟩, validate_eq_ok_iff.2 ⟨repository, lease, fence, safe, state', statuses',
      h', id, hid, rfl⟩, idempotent⟩

end BinaryChangeSet

end SimplicioFast
