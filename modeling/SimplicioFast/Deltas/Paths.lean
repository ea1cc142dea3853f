import Mathlib.Data.List.Infix
import SimplicioFast.Deltas.Accepted
import SimplicioFast.Lib.Joined

/-!
# Normal paths

`_normal_path` turns backslashes into slashes, drops the slashes at both ends, and refuses absolute paths and most of
those with `..`.  It has no test for a repeated separator, for a name `.`, or for `..` at the end.  Its results are
canonical exactly when the given paths pass these tests too (`normalForms_iff`): then two paths of one file have one
result, and a delta has one record for a file, below the root.
-/

namespace SimplicioFast

namespace Deltas

/-! ## What a path denotes -/

def names (path : PyStr) : List PyStr := path.splitOn (.scalar '/')

/-- A path goes on with a name: `none` is a place outside the root. -/
def enter (place : Option (List PyStr)) (name : PyStr) : Option (List PyStr) :=
  if name = [] ∨ name = "." then place
  else if name = ".." then place.bind fun above => if above = [] then none else some above.dropLast
  else place.map (· ++ [name])

/-- The file that a path denotes: its place below the root. -/
def place (path : PyStr) : Option (List PyStr) := (names path).foldl enter (some [])

/-- The path with slashes as separators. -/
def slashed (value : PyStr) : PyStr := PyStr.replace "\\" "/" value

/-- The path that `_normal_path` returns, if it accepts the value. -/
def candidate (value : PyStr) : PyStr := PyStr.stripIf (· = .scalar '/') (slashed value)

/-- The tests that `_normal_path` lacks: there is no repeated separator, no name `.`, and no `..` at the end. -/
def passesMissing (path : PyStr) : Bool :=
  !PyStr.contains "//" path && !("./" : PyStr).isPrefixOf path && !PyStr.contains "/./" path &&
    !("/." : PyStr).isSuffixOf path && !("/.." : PyStr).isSuffixOf path

/-- No name is empty, `.` or `..`. -/
def Clean (path : PyStr) : Prop := ∀ name ∈ names path, name ≠ [] ∧ name ≠ "." ∧ name ≠ ".."

variable {value value' path path' s t : PyStr} {p : PyChar → Bool}

theorem contains_iff {old s : PyStr} : PyStr.contains old s = true ↔ old <:+: s := by
  unfold PyStr.contains
  rw [List.any_eq_true]
  simp only [List.mem_tails, List.isPrefixOf_iff_prefix]
  exact ⟨fun ⟨t, back, front⟩ => front.isInfix.trans back.isInfix, fun ⟨a, b, same⟩ =>
    ⟨old ++ b, ⟨a, by rw [← same, List.append_assoc]⟩, List.prefix_append _ _⟩⟩

theorem exists_stripIf (p : PyChar → Bool) (s : PyStr) :
    ∃ a b, s = a ++ PyStr.stripIf p s ++ b ∧ (∀ c ∈ a, p c = true) ∧ ∀ c ∈ b, p c = true := by
  have taken (l : PyStr) : ∀ c ∈ l.takeWhile p, p c = true := fun c mem => List.mem_takeWhile_imp mem
  refine ⟨s.takeWhile p, (((s.dropWhile p).reverse).takeWhile p).reverse, ?_, taken s, fun c mem => ?_⟩
  · unfold PyStr.stripIf
    rw [List.append_assoc, ← List.reverse_append, List.takeWhile_append_dropWhile, List.reverse_reverse,
      List.takeWhile_append_dropWhile]
  · exact taken _ c (List.mem_reverse.1 mem)

theorem head?_dropWhile (l : PyStr) : (l.dropWhile p).head?.all (!p ·) = true := by
  induction l with
  | nil => rfl
  | cons c l ih =>
    rw [List.dropWhile_cons]
    split_ifs with drop
    · exact ih
    · show (!p c) = true
      simp [drop]

theorem stripIf_ends {c : PyChar} (hc : p c = true) :
    ¬ [c] <+: PyStr.stripIf p s ∧ ¬ [c] <:+ PyStr.stripIf p s := by
  have kept (l : PyStr) {t : PyStr} : l.dropWhile p ≠ c :: t := fun same => by
    have first := head?_dropWhile (p := p) l
    rw [same] at first
    simp [hc] at first
  constructor
  · rintro ⟨t, same⟩
    unfold PyStr.stripIf at same
    obtain ⟨u, back⟩ : (s.dropWhile p).reverse.dropWhile p <:+ (s.dropWhile p).reverse := List.dropWhile_suffix p
    have whole := congrArg List.reverse back
    rw [List.reverse_append, List.reverse_reverse, ← same] at whole
    exact kept s whole.symm
  · rintro ⟨t, same⟩
    have whole := congrArg List.reverse same
    unfold PyStr.stripIf at whole
    rw [List.reverse_append, List.reverse_reverse] at whole
    exact kept _ whole.symm

/-! ## Names -/

@[simp] theorem enter_nil (place : Option (List PyStr)) : enter place [] = place := if_pos (.inl rfl)

theorem foldl_enter_nil {l : List PyStr} (empty : ∀ name ∈ l, name = []) (place : Option (List PyStr)) :
    l.foldl enter place = place := by
  induction l with
  | nil => rfl
  | cons name l ih =>
    rw [List.foldl_cons, empty name List.mem_cons_self, enter_nil]
    exact ih fun name mem => empty name (List.mem_cons_of_mem _ mem)

theorem place_append {a b : PyStr} (front : ∀ c ∈ a, c = .scalar '/') (back : ∀ c ∈ b, c = .scalar '/') :
    place (a ++ s ++ b) = place s := by
  unfold place names
  have last : ((s ++ b).splitOn (.scalar '/')).foldl enter (some []) = (s.splitOn (.scalar '/')).foldl enter (some []) := by
    cases b with
    | nil => rw [List.append_nil]
    | cons c b =>
      rw [back c List.mem_cons_self, List.splitOn_append_cons_self, List.foldl_append]
      exact foldl_enter_nil (fun name mem =>
        Joined.eq_nil_of_mem_splitOn (fun c mem => back c (List.mem_cons_of_mem _ mem)) mem) _
  rw [List.append_assoc]
  induction a with
  | nil => exact last
  | cons c a ih =>
    rw [front c List.mem_cons_self, List.cons_append, ← List.nil_append (_ :: _), List.splitOn_append_cons_self,
      List.splitOn_nil, List.singleton_append, List.foldl_cons, enter_nil]
    exact ih fun c mem => front c (List.mem_cons_of_mem _ mem)

theorem place_candidate (value : PyStr) : place (candidate value) = place (slashed value) := by
  obtain ⟨a, b, same, front, back⟩ := exists_stripIf (· = .scalar '/') (slashed value)
  rw [same]
  exact (place_append (fun c mem => of_decide_eq_true (front c mem)) fun c mem => of_decide_eq_true (back c mem)).symm

theorem place_eq_of_clean (clean : Clean path) : place path = some (names path) := by
  have all (l : List PyStr) (plain : ∀ name ∈ l, name ≠ [] ∧ name ≠ "." ∧ name ≠ "..") (above : List PyStr) :
      l.foldl enter (some above) = some (above ++ l) := by
    induction l generalizing above with
    | nil => rw [List.append_nil]; rfl
    | cons name l ih =>
      obtain ⟨nonempty, dot, dots⟩ := plain name List.mem_cons_self
      rw [List.foldl_cons, enter, if_neg (not_or.2 ⟨nonempty, dot⟩), if_neg dots, Option.map_some,
        ih fun name mem => plain name (List.mem_cons_of_mem _ mem)]
      rw [List.append_assoc, List.singleton_append]
  exact all (names path) clean []

theorem eq_of_place_eq (clean : Clean path) (clean' : Clean path') (same : place path = place path') : path = path' := by
  rw [place_eq_of_clean clean, place_eq_of_clean clean', Option.some.injEq] at same
  have joined := congrArg (List.intercalate [.scalar '/']) same
  unfold names at joined
  rwa [List.intercalate_splitOn, List.intercalate_splitOn] at joined

/-! ## `_normal_path` -/

theorem normalPath_eq_ok (accepted : normalPath value = .ok path) : path = candidate value ∧ path ≠ [] ∧ path ≠ "." ∧
    path ≠ ".." ∧ ¬ ("../" : PyStr) <+: path ∧ ¬ ("/../" : PyStr) <:+: path := by
  unfold normalPath at accepted
  dsimp only at accepted
  split_ifs at accepted with absolute dots derived
  cases accepted
  rw [not_or, not_or, not_or, not_or] at dots
  obtain ⟨nonempty, dot, up, front, inside⟩ := dots
  refine ⟨rfl, nonempty, dot, up, fun h => front (List.isPrefixOf_iff_prefix.2 h), fun h => inside (contains_iff.2 h)⟩

/-- The result of `_normal_path` is clean exactly when it passes the tests that are missing. -/
theorem clean_iff (accepted : normalPath value = .ok path) : Clean path ↔ passesMissing (candidate value) = true := by
  obtain ⟨rfl, nonempty, dot, up, front, inside⟩ := normalPath_eq_ok accepted
  obtain ⟨first, last⟩ : ¬ [.scalar '/'] <+: candidate value ∧ ¬ [.scalar '/'] <:+ candidate value :=
    stripIf_ends (decide_eq_true rfl)
  have empty : ([] : PyStr) ∈ names (candidate value) ↔ ("//" : PyStr) <:+: candidate value := by
    refine (Joined.mem_splitOn_iff List.not_mem_nil).trans ?_
    rw [or_iff_right nonempty.symm]
    exact (or_iff_right first).trans (or_iff_right last)
  have single : (".": PyStr) ∈ names (candidate value) ↔ ("./" : PyStr) <+: candidate value ∨
      ("/." : PyStr) <:+ candidate value ∨ ("/./" : PyStr) <:+: candidate value := by
    refine (Joined.mem_splitOn_iff (by decide)).trans ?_
    rw [or_iff_right (Ne.symm dot)]
    rfl
  have double : ("..": PyStr) ∈ names (candidate value) ↔ ("/.." : PyStr) <:+ candidate value := by
    refine (Joined.mem_splitOn_iff (by decide)).trans ?_
    rw [or_iff_right (Ne.symm up)]
    exact (or_iff_right front).trans (or_iff_left inside)
  have clean : Clean (candidate value) ↔ ([] : PyStr) ∉ names (candidate value) ∧ (".": PyStr) ∉ names (candidate value) ∧
      ("..": PyStr) ∉ names (candidate value) := by
    unfold Clean
    constructor
    · exact fun clean => ⟨fun mem => (clean _ mem).1 rfl, fun mem => (clean _ mem).2.1 rfl, fun mem => (clean _ mem).2.2 rfl⟩
    · rintro ⟨empty, single, double⟩ name mem
      exact ⟨fun h => empty (h ▸ mem), fun h => single (h ▸ mem), fun h => double (h ▸ mem)⟩
  rw [clean, empty, single, double]
  unfold passesMissing
  simp only [Bool.and_eq_true, Bool.not_eq_true', ← Bool.not_eq_true, contains_iff, List.isPrefixOf_iff_prefix,
    List.isSuffixOf_iff_suffix, not_or, and_assoc]
  tauto

/-! ## The deltas of given paths -/

section

variable {parse : PyStr → Bytes → Except DeltaRaised (List JsonObject)} {createdAt : PyStr} {tree : Worktree}
  {files files' : DeltaFiles} {base : Base} {baseGeneration worktreeId : PyStr} {config : Option PyStr}
  {paths requested : List PyStr} {d : Delta}

/-- A path of `sorted({_normal_path(path) for path in changed_paths})` is the result for one of them. -/
theorem exists_of_mem_scope (ran : scope (some paths) = .ok (some requested)) (mem : path ∈ requested) :
    ∃ value ∈ paths, normalPath value = .ok path := by
  obtain ⟨normalized, mapped, ran⟩ := bind_ok.1 ran
  cases ran
  exact (Except.mem_of_mapM_eq_ok mapped).1 (PyStr.mem_sortedSet.1 mem)

/-- The records that `create_delta` makes for given paths. -/
def scopedChanges (parse : PyStr → Bytes → Except DeltaRaised (List JsonObject)) (tree : Worktree) (base : Base)
    (paths : List PyStr) : Except DeltaRaised (Dict PyStr JsonObject) := do
  let requested ← scope (some paths)
  let current ← currentPaths tree requested
  checkRequested base current requested
  (candidates base current requested).foldlM (change parse base current) .empty

/-- The delta that `create_delta` returns has the records of its paths, unless it was already there, with another identity
that has the same digest. -/
theorem scopedChanges_of_createDelta
    (ran : createDelta parse createdAt tree files base baseGeneration worktreeId (some paths) config = .ok (d, files')) :
    ∃ changed, scopedChanges parse tree base paths = .ok changed ∧
      (Collide d.toIdentity (base.identity baseGeneration worktreeId changed) ∨
        d.toIdentity.Alike (base.identity baseGeneration worktreeId changed)) := by
  obtain ⟨_, -, ran⟩ := bind_ok.1 ran
  obtain ⟨_, -, ran⟩ := bind_ok.1 ran
  obtain ⟨requested, given, ran⟩ := bind_ok.1 ran
  obtain ⟨current, found, ran⟩ := bind_ok.1 ran
  obtain ⟨_, checked, ran⟩ := bind_ok.1 ran
  obtain ⟨changed, changes, ran⟩ := bind_ok.1 ran
  obtain ⟨generation, verified, ran⟩ := bind_ok.1 ran
  obtain ⟨fresh, made, ran⟩ := bind_ok.1 ran
  have fields := make_eq_ok_iff.1 made
  have identity : fresh.toIdentity = base.identity baseGeneration worktreeId changed := congrArg Fields.toIdentity fields
  have name : fresh.deltaGeneration = generation := congrArg Fields.deltaGeneration fields
  refine ⟨changed, bind_ok.2 ⟨requested, given, bind_ok.2 ⟨current, found,
    bind_ok.2 ⟨(), checked, changes⟩⟩⟩, ?_⟩
  rcases published_or_kept ran with published | ⟨-, kept⟩
  · obtain ⟨text, -, published⟩ := bind_ok.1 published
    cases published
    rw [identity]
    exact .inr (alike_of_same (.refl _))
  · obtain ⟨-, -, digest⟩ := spec_of_loadDelta kept
    exact collide_or_alike digest (name ▸ verified)

theorem exists_of_scopedChanges {changed : Dict PyStr JsonObject} (ran : scopedChanges parse tree base paths = .ok changed)
    (found : (changed.get? path).isSome = true) : ∃ value ∈ paths, normalPath value = .ok path := by
  obtain ⟨requested, given, ran⟩ := bind_ok.1 ran
  obtain ⟨current, -, ran⟩ := bind_ok.1 ran
  obtain ⟨-, -, changes⟩ := bind_ok.1 ran
  obtain ⟨normalized, mapped, same⟩ := bind_ok.1 given
  cases same
  by_cases mem : path ∈ PyStr.sortedSet normalized
  · exact exists_of_mem_scope given mem
  · rw [(get?_foldlM_change changes path).2 mem] at found
    cases found

/-- `_normal_path` is canonical on the given paths, and so is the delta that is created from them. -/
structure NormalForms (paths : List PyStr) : Prop where
  equal : ∀ value ∈ paths, ∀ value' ∈ paths, ∀ path path', normalPath value = .ok path → normalPath value' = .ok path' →
    place (slashed value) = place (slashed value') → path = path'
  clean : ∀ value ∈ paths, ∀ path, normalPath value = .ok path → Clean path
  records : ∀ parse createdAt tree files base baseGeneration worktreeId config d files',
    createDelta parse createdAt tree files base baseGeneration worktreeId (some paths) config = .ok (d, files') →
      (∃ changed, scopedChanges parse tree base paths = .ok changed ∧
        Collide d.toIdentity (base.identity baseGeneration worktreeId changed)) ∨
      ∀ path, (d.changed.get? path).isSome = true → (∃ names, names ≠ [] ∧ place path = some names) ∧
        ∀ path', (d.changed.get? path').isSome = true → place path = place path' → path = path'

/-- The results for paths are canonical, and so is the delta that is created from them, exactly when those that are accepted
have no repeated separator between names, no name `.`, and no `..` at the end. -/
theorem normalForms_iff (paths : List PyStr) : NormalForms paths ↔
    ∀ value ∈ paths, ∀ path, normalPath value = .ok path → passesMissing (candidate value) = true := by
  constructor
  · exact fun forms value mem path accepted => (clean_iff accepted).1 (forms.clean value mem path accepted)
  · intro passes
    have clean (value : PyStr) (mem : value ∈ paths) (path : PyStr) (accepted : normalPath value = .ok path) : Clean path :=
      (clean_iff accepted).2 (passes value mem path accepted)
    refine ⟨fun value mem value' mem' path path' accepted accepted' same => ?_, clean, ?_⟩
    · refine eq_of_place_eq (clean value mem path accepted) (clean value' mem' path' accepted') ?_
      rw [(normalPath_eq_ok accepted).1, (normalPath_eq_ok accepted').1, place_candidate, place_candidate, same]
    · intro parse createdAt tree files base baseGeneration worktreeId config d files' ran
      obtain ⟨changed, changes, collide | alike⟩ := scopedChanges_of_createDelta ran
      · exact .inl ⟨changed, changes, collide⟩
      · have listed (path : PyStr) (found : (d.changed.get? path).isSome = true) : Clean path := by
          rw [isSome_of_same alike.changed] at found
          obtain ⟨value, mem, accepted⟩ := exists_of_scopedChanges changes found
          exact clean value mem path accepted
        exact .inr fun path found => ⟨⟨names path, List.splitOn_ne_nil _ _, place_eq_of_clean (listed path found)⟩,
          fun path' found' same => eq_of_place_eq (listed path found) (listed path' found') same⟩

/-- Two paths of one file have two results, when one of them repeats a separator. -/
theorem not_normalForms_repeated : ¬ ∀ paths, NormalForms paths := by
  intro all
  have same := (all ["a/b.py", "a//b.py"]).equal "a/b.py" (by decide) "a//b.py" (by decide) "a/b.py" "a//b.py"
    (by decide +kernel) (by decide +kernel) (by decide +kernel)
  exact absurd same (by decide)

end

end Deltas

end SimplicioFast
