import SimplicioFast.Lib.Joined
import SimplicioFast.Lib.Lines
import SimplicioFast.Prism.Base

/-!
# The authority of a context view

A context authority names the roots below which a view may read.  The constructor checks the roots
with `_validate_relative_path`, and `permits_path` checks the path with it and compares the path
with each root. A path is permitted exactly when its parts begin with the parts of a root
(`permitsPath_eq_true_iff`). A text without parts, such as the root `"."`, fails in `path.parts[0]`:
an authority with such a root, the default one among them, cannot be built.
-/

namespace SimplicioFast

namespace Views

/-- The exceptions of the context views. -/
inductive Raised
  | contextViewError (reasonCode detail : PyStr)
  | valueError (message : PyStr)
  | indexError
deriving DecidableEq

/-- The exception, unless the condition holds. -/
def require (condition : Bool) (raised : Raised) : Except Raised Unit :=
  if condition then .ok () else .error raised

def requiredText (value field : PyStr) : Except Raised Unit :=
  require (value.strip ≠ []) (.valueError (field ++ " must be a non-empty string"))

def normalized (value : PyStr) : PyStr := PyStr.replace "\\" "/" value

/-- `PurePosixPath(normalized).parts`, for a relative path. -/
def partsOf (value : PyStr) : List PyStr := Prism.parts (normalized value)

example : partsOf "src\\./a.py" = (["src", "a.py"] : List PyStr) := by decide +kernel

def validateRelativePath (value : PyStr) (allowDot : Bool) : Except Raised PyStr :=
  if (normalized value).head? = some (.scalar '/') || (".." : PyStr) ∈ partsOf value ||
      (!allowDot && normalized value ∈ ([[], "."] : List PyStr)) then
    .error (.contextViewError "path_escape" value)
  else
    match partsOf value with
    | [] => .error .indexError
    | first :: _ =>
      if (.scalar ':') ∈ first then .error (.contextViewError "path_escape" value)
      else .ok (Prism.asPosix (normalized value))

def postInit (principal fence : PyStr) (capabilities allowedRoots : List PyStr) :
    Except Raised Unit := do
  requiredText principal "principal"
  requiredText fence "fence"
  require (capabilities ≠ [] && capabilities.all (· ≠ []))
    (.valueError "capabilities must be a non-empty tuple")
  require (allowedRoots ≠ [] && allowedRoots.all (· ≠ []))
    (.valueError "allowed_roots must be a non-empty tuple")
  allowedRoots.forM fun root => do let _ ← validateRelativePath root true

/-- A `ContextAuthority` that its constructor accepted. -/
structure ContextAuthority where
  principal : PyStr
  fence : PyStr
  capabilities : List PyStr
  allowedRoots : List PyStr
  accepted : postInit principal fence capabilities allowedRoots = .ok ()

/-- `ContextAuthority(principal, fence, capabilities, allowed_roots)`. -/
def contextAuthority (principal fence : PyStr) (capabilities allowedRoots : List PyStr) :
    Except Raised ContextAuthority :=
  match h : postInit principal fence capabilities allowedRoots with
  | .ok () => .ok ⟨principal, fence, capabilities, allowedRoots, h⟩
  | .error raised => .error raised

/-- The default of `allowed_roots`. -/
def defaultRoots : List PyStr := ["."]

/-- `s.rstrip("/")`. -/
def rstripSlash (s : PyStr) : PyStr := (s.reverse.dropWhile (· = PyChar.scalar '/')).reverse

/-- Whether a root permits the candidate. -/
def rootPermits (candidate root : PyStr) : Except Raised Bool :=
  if root = "." then .ok true
  else do
    let base ← validateRelativePath root true
    return candidate = base || (rstripSlash base ++ [PyChar.scalar '/']).isPrefixOf candidate

def ContextAuthority.permitsPath (authority : ContextAuthority) (value : PyStr) :
    Except Raised Bool := do
  let candidate ← validateRelativePath value false
  authority.allowedRoots.anyM fun root => rootPermits candidate root

/-! ## What a path should mean -/

/-- The text is a relative path without an escape: no `..`, and no drive in front. -/
def Inside (value : PyStr) : Prop :=
  (normalized value).head? ≠ some (.scalar '/') ∧ (".." : PyStr) ∉ partsOf value ∧
    ∀ first ∈ (partsOf value).head?, PyChar.scalar ':' ∉ first

/-- The path is one of the roots, or lies below one. -/
def Below (roots : List PyStr) (path : PyStr) :
    Prop := ∃ root ∈ roots, partsOf root <+: partsOf path

/-! ## The parts of a path -/

variable {value root path candidate base : PyStr} {part : PyStr} {allowDot : Bool}

theorem slash_notMem_of_mem_partsOf (mem : part ∈ partsOf value) : PyChar.scalar '/' ∉ part :=
  Joined.not_mem_of_mem_splitOn (List.mem_filter.1 mem).1

theorem ne_nil_of_mem_partsOf (mem : part ∈ partsOf value) : part ≠ [] := by
  have kept := (List.mem_filter.1 mem).2
  rw [Bool.and_eq_true, decide_eq_true_eq] at kept
  exact kept.1

theorem asPosix_eq (some : partsOf value ≠ []) :
    Prism.asPosix (normalized value) = List.intercalate [.scalar '/'] (partsOf value) :=
  if_neg some

theorem rstripSlash_intercalate {fs : List PyStr} (plain : ∀ f ∈ fs, PyChar.scalar '/' ∉ f)
    (filled : ∀ f ∈ fs, f ≠ []) :
    rstripSlash (List.intercalate [.scalar '/'] fs) = List.intercalate [.scalar '/'] fs := by
  have last : ∀ c ∈ (List.intercalate [PyChar.scalar '/'] fs).getLast?, c ≠ .scalar '/' := by
    induction fs with
    | nil => simp
    | cons f fs ih =>
      obtain ⟨here, plain⟩ := List.forall_mem_cons.1 plain
      obtain ⟨some, filled⟩ := List.forall_mem_cons.1 filled
      cases fs with
      | nil =>
        rw [List.intercalate_singleton]
        intro c mem same
        exact here (same ▸ List.mem_of_getLast? mem)
      | cons f' fs =>
        have more : List.intercalate [PyChar.scalar '/'] (f' :: fs) ≠ [] := by
          cases fs with
          | nil => simpa using filled f' List.mem_cons_self
          | cons f'' fs => simp [List.intercalate_cons_cons]
        rw [List.intercalate_cons_cons, List.append_assoc,
          List.getLast?_append_of_ne_nil _ (by simp), List.getLast?_append_of_ne_nil _ more]
        exact ih plain filled
  rw [rstripSlash]
  cases back : (List.intercalate [PyChar.scalar '/'] fs).reverse with
  | nil => rw [List.reverse_eq_nil_iff.1 back]; rfl
  | cons c s =>
    have other : c ≠ .scalar '/' := last c (by rw [List.getLast?_eq_head?_reverse, back]; rfl)
    rw [List.dropWhile_cons_of_neg (by simpa using other), ← back, List.reverse_reverse]

/-! ## The check of a path -/

theorem partsOf_eq_nil (h : normalized value ∈ ([[], "."] : List PyStr)) : partsOf value = [] := by
  unfold partsOf
  rcases List.mem_pair.1 h with h | h
  · rw [h]
    decide
  · rw [h]
    decide

theorem validateRelativePath_eq_ok_iff :
    validateRelativePath value allowDot = .ok candidate ↔
      Inside value ∧ partsOf value ≠ [] ∧ candidate = List.intercalate [.scalar '/']
          (partsOf value) := by
  unfold validateRelativePath
  constructor
  · intro h
    split at h
    · cases h
    · next guard =>
      simp only [Bool.or_eq_true, decide_eq_true_eq, not_or] at guard
      cases parts : partsOf value with
      | nil =>
        rw [parts] at h
        cases h
      | cons first rest =>
        have some : partsOf value ≠ [] := parts ▸ List.cons_ne_nil _ _
        rw [parts] at h
        dsimp only at h
        split at h
        · cases h
        · next colon =>
          rw [asPosix_eq some, parts] at h
          refine ⟨⟨guard.1.1, guard.1.2, ?_⟩, List.cons_ne_nil _ _, (Except.ok.inj h).symm⟩
          rw [parts]
          rintro _ ⟨⟩
          exact colon
  · rintro ⟨⟨relative, up, drive⟩, some, rfl⟩
    have dot : normalized value ∉ ([[], "."] : List PyStr) := fun h => some (partsOf_eq_nil h)
    rw [if_neg
      (by simp only [Bool.or_eq_true, Bool.and_eq_true, decide_eq_true_eq, relative, up, dot,
      and_false, or_self, not_false_iff])]
    cases parts : partsOf value with
    | nil => exact absurd parts some
    | cons first rest =>
      rw [parts] at drive
      dsimp only
      rw [if_neg (drive first rfl), asPosix_eq some, parts]

theorem rootPermits_eq (inside : Inside root) (some : partsOf root ≠ [])
    (some' : partsOf path ≠ []) :
    rootPermits (List.intercalate [.scalar '/'] (partsOf path)) root =
        .ok (decide (partsOf root <+: partsOf path)) := by
  have other : root ≠ "." := by
    rintro rfl
    exact some (by decide)
  have valid :
      validateRelativePath root true = .ok (List.intercalate [.scalar '/'] (partsOf root)) :=
    validateRelativePath_eq_ok_iff.2 ⟨inside, some, rfl⟩
  have plain : ∀ {value}, ∀ part ∈ partsOf value, PyChar.scalar '/' ∉ part :=
    fun part mem => slash_notMem_of_mem_partsOf mem
  rw [rootPermits, if_neg other, valid]
  show Except.ok _ = _
  rw [rstripSlash_intercalate plain fun part mem => ne_nil_of_mem_partsOf mem]
  refine congrArg Except.ok (Bool.eq_iff_iff.2 ?_)
  rw [Bool.or_eq_true, decide_eq_true_eq, List.isPrefixOf_iff_prefix, decide_eq_true_eq]
  exact Joined.eq_or_prefix_iff plain plain some some'

/-! ## The authority -/

variable {authority : ContextAuthority} {principal fence : PyStr} {capabilities roots : List PyStr}

theorem require_eq_ok_iff {condition : Bool} {raised : Raised} {u : Unit} :
    require condition raised = .ok u ↔ condition = true := by
  cases condition <;> simp [require]

theorem postInit_eq_ok_iff :
    postInit principal fence capabilities roots = .ok () ↔
      principal.strip ≠ [] ∧ fence.strip ≠ [] ∧ (capabilities ≠ [] ∧ [] ∉ capabilities) ∧
        (roots ≠ [] ∧ [] ∉ roots) ∧ ∀ root ∈ roots, Inside root ∧ partsOf root ≠ [] := by
  have filled : ∀ l : List PyStr, (l ≠ [] && l.all (· ≠ [])) = true ↔ l ≠ [] ∧ [] ∉ l := by
    intro l
    rw [Bool.and_eq_true, decide_eq_true_eq, List.all_eq_true]
    refine and_congr_right fun _ => ⟨fun each mem => ?_, fun none a mem => ?_⟩
    · exact of_decide_eq_true (each [] mem) rfl
    · exact decide_eq_true fun empty => none (empty ▸ mem)
  have checked : ∀ root : PyStr,
      (validateRelativePath root true >>= fun _ => .ok ()) = .ok () ↔
      Inside root ∧ partsOf root ≠ [] := by
    intro root
    rw [bind_ok]
    constructor
    · rintro ⟨base, valid, -⟩
      obtain ⟨inside, some, -⟩ := validateRelativePath_eq_ok_iff.1 valid
      exact ⟨inside, some⟩
    · exact fun h => ⟨_, validateRelativePath_eq_ok_iff.2 ⟨h.1, h.2, rfl⟩, rfl⟩
  unfold postInit requiredText
  simp only [bind_ok, require_eq_ok_iff, exists_const, filled, decide_eq_true_eq]
  refine and_congr_right fun _ => and_congr_right fun _ => and_congr_right fun _ =>
    and_congr_right fun _ => ?_
  exact Except.forM_eq_ok_iff.trans (forall₂_congr fun root _ => checked root)

theorem ContextAuthority.roots_inside (authority : ContextAuthority) :
    ∀ root ∈ authority.allowedRoots, Inside root ∧ partsOf root ≠ [] :=
  (postInit_eq_ok_iff.1 authority.accepted).2.2.2.2

theorem anyM_rootPermits (each : ∀ root ∈ roots, Inside root ∧ partsOf root ≠ [])
    (some : partsOf path ≠ []) :
    (roots.anyM fun root => rootPermits (List.intercalate [.scalar '/'] (partsOf path)) root) =
      .ok (roots.any fun root => partsOf root <+: partsOf path) := by
  induction roots with
  | nil => rfl
  | cons root roots ih =>
    obtain ⟨⟨inside, parts⟩, each⟩ := List.forall_mem_cons.1 each
    rw [List.anyM_cons, rootPermits_eq inside parts some, List.any_cons]
    show (if decide (partsOf root <+: partsOf path) then _ else _) = _
    by_cases here : partsOf root <+: partsOf path
    · rw [decide_eq_true here, if_pos rfl, Bool.true_or]
      rfl
    · rw [decide_eq_false here, if_neg Bool.false_ne_true, Bool.false_or]
      exact ih each

theorem any_eq_true_iff_below :
    (roots.any fun root => decide (partsOf root <+: partsOf path)) = true ↔ Below roots path := by
  rw [List.any_eq_true]
  exact exists_congr fun root => and_congr_right fun _ => decide_eq_true_iff

theorem permitsPath_eq_ok (inside : Inside path) (some : partsOf path ≠ []) :
    ∃ permitted, authority.permitsPath path = .ok permitted ∧
      (permitted = true ↔ Below authority.allowedRoots path) := by
  refine ⟨_, ?_, any_eq_true_iff_below⟩
  rw [ContextAuthority.permitsPath, validateRelativePath_eq_ok_iff.2 ⟨inside, some, rfl⟩]
  exact anyM_rootPermits authority.roots_inside some

theorem permitsPath_ne_ok (none : partsOf path = []) {permitted : Bool} :
    authority.permitsPath path ≠ .ok permitted := by
  intro h
  obtain ⟨candidate, valid, -⟩ := bind_ok.1 h
  exact (validateRelativePath_eq_ok_iff.1 valid).2.1 none

theorem permitsPath_eq_true_iff :
    authority.permitsPath path = .ok true ↔ Inside path ∧ Below authority.allowedRoots path := by
  constructor
  · intro h
    obtain ⟨candidate, valid, -⟩ := bind_ok.1 h
    obtain ⟨inside, some, -⟩ := validateRelativePath_eq_ok_iff.1 valid
    obtain ⟨permitted, answer, law⟩ : ∃ permitted, authority.permitsPath path = .ok permitted ∧ _ :=
      permitsPath_eq_ok inside some
    exact ⟨inside, law.1 (Except.ok.inj (answer.symm.trans h))⟩
  · rintro ⟨inside, below⟩
    have some : partsOf path ≠ [] := by
      obtain ⟨root, mem, first⟩ := below
      intro none
      rw [none, List.prefix_nil] at first
      exact (authority.roots_inside root mem).2 first
    obtain ⟨permitted, answer, law⟩ : ∃ permitted, authority.permitsPath path = .ok permitted ∧ _ :=
      permitsPath_eq_ok inside some
    rw [answer, law.2 below]

/-! ## Path permission -/

/-- The texts of an authority are filled, and its roots are relative paths without an escape. -/
structure Proper (principal fence : PyStr) (capabilities roots : List PyStr) : Prop where
  principalFilled : principal.strip ≠ []
  fenceFilled : fence.strip ≠ []
  capabilitiesFilled : capabilities ≠ [] ∧ [] ∉ capabilities
  rootsFilled : roots ≠ [] ∧ [] ∉ roots
  rootsInside : ∀ root ∈ roots, Inside root

/-- The authority is built, and says of the path whether it is a root or lies below one. -/
def Permits (principal fence : PyStr) (capabilities roots : List PyStr) (path : PyStr) : Prop :=
  ∃ permitted,
    (do let authority ← contextAuthority principal fence capabilities roots
        authority.permitsPath path) = .ok permitted ∧ (permitted = true ↔ Below roots path)

theorem contextAuthority_eq_ok (h : postInit principal fence capabilities roots = .ok ()) :
    contextAuthority principal fence capabilities roots =
        .ok ⟨principal, fence, capabilities, roots, h⟩ := by
  unfold contextAuthority
  split
  · rfl
  · next raised refused =>
    rw [h] at refused
    cases refused

theorem contextAuthority_eq_error {raised : Raised}
    (h : postInit principal fence capabilities roots = .error raised) :
    contextAuthority principal fence capabilities roots = .error raised := by
  unfold contextAuthority
  split
  · next accepted =>
    rw [h] at accepted
    cases accepted
  · next refused => rw [Except.error.inj (refused.symm.trans h)]

theorem postInit_of_contextAuthority {authority : ContextAuthority}
    (h : contextAuthority principal fence capabilities roots = .ok authority) :
    postInit principal fence capabilities roots = .ok () := by
  unfold contextAuthority at h
  split at h
  · assumption
  · cases h

/-- An accepted authority permits exactly the paths that are a root or lie below one, and answers
for every path inside that has a part.  An authority with proper arguments answers for a path inside
exactly when every root and the path have a part; the root `"."` has none.  The paths `""` and `"."`
are refused on purpose. -/
theorem permits_iff (path : PyStr) :
    (∀ authority : ContextAuthority,
      (authority.permitsPath path = .ok true ↔ Inside path ∧ Below authority.allowedRoots path) ∧
        (Inside path → partsOf path ≠ [] → ∃ permitted, authority.permitsPath path =
        .ok permitted)) ∧
    ∀ (principal fence : PyStr) (capabilities roots : List PyStr),
      Proper principal fence capabilities roots → Inside path →
        normalized path ∉ ([[], "."] : List PyStr) →
        (Permits principal fence capabilities roots path ↔
          (∀ root ∈ roots, partsOf root ≠ []) ∧ partsOf path ≠ []) := by
  refine ⟨fun authority => ⟨permitsPath_eq_true_iff, fun inside some => ?_⟩, ?_⟩
  · obtain ⟨permitted, answer, -⟩ : ∃ permitted, authority.permitsPath path = .ok permitted ∧ _ :=
      permitsPath_eq_ok inside some
    exact ⟨permitted, answer⟩
  · intro principal fence capabilities roots proper inside _
    constructor
    · rintro ⟨permitted, answer, -⟩
      obtain ⟨authority, built, answer⟩ := bind_ok.1 answer
      have each := (postInit_eq_ok_iff.1 (postInit_of_contextAuthority built)).2.2.2.2
      exact ⟨fun root mem => (each root mem).2, fun none => permitsPath_ne_ok none answer⟩
    · rintro ⟨each, some⟩
      have accepted : postInit principal fence capabilities roots = .ok () :=
        postInit_eq_ok_iff.2 ⟨proper.principalFilled, proper.fenceFilled, proper.capabilitiesFilled,
          proper.rootsFilled, fun root mem => ⟨proper.rootsInside root mem, each root mem⟩⟩
      unfold Permits
      rw [contextAuthority_eq_ok accepted]
      exact permitsPath_eq_ok inside some

/-- A root `src` permits a source below it, and not the sibling `srcs`. -/
theorem permits_src :
    Permits "agent" "fence-1" ["context:read"] ["src"] "src/a.py" ∧
      Permits "agent" "fence-1" ["context:read"] ["src"] "srcs/a.py" := by
  have proper : Proper "agent" "fence-1" ["context:read"] ["src"] := by
    refine ⟨by decide, by decide, by decide, by decide, ?_⟩
    rintro root mem
    rw [List.mem_singleton.1 mem]
    unfold Inside
    decide
  have inside : Inside "src/a.py" ∧ Inside "srcs/a.py" := by
    unfold Inside
    decide
  exact ⟨((permits_iff _).2 _ _ _ _ proper inside.1 (by decide)).2 (by decide),
    ((permits_iff _).2 _ _ _ _ proper inside.2 (by decide)).2 (by decide)⟩

/-- The default authority raises `IndexError`, and so does a permitted root for the relative path
`"./"`. -/
theorem not_permits_default :
    (Proper "agent" "fence-1" ["context:read"] defaultRoots ∧ Inside "src/a.py" ∧
      contextAuthority "agent" "fence-1" ["context:read"] defaultRoots = .error .indexError ∧
      ¬ Permits "agent" "fence-1" ["context:read"] defaultRoots "src/a.py") ∧
    (Proper "agent" "fence-1" ["context:read"] ["src"] ∧ Inside "./" ∧
      normalized "./" ∉ ([[], "."] : List PyStr) ∧
      (∀ authority : ContextAuthority, authority.permitsPath "./" = .error .indexError) ∧
      ¬ Permits "agent" "fence-1" ["context:read"] ["src"] "./") := by
  have proper : ∀ root : PyStr, root ≠ [] → Inside root →
      Proper "agent" "fence-1" ["context:read"] [root] := by
    intro root some inside
    refine ⟨by decide, by decide, by decide, ⟨List.cons_ne_nil _ _, ?_⟩, ?_⟩
    · rw [List.mem_singleton]
      exact fun empty => some empty.symm
    · rintro other mem
      rw [List.mem_singleton.1 mem]
      exact inside
  have inside : Inside "." ∧ Inside "src" ∧ Inside "src/a.py" ∧ Inside "./" := by
    unfold Inside
    decide
  have built : contextAuthority "agent" "fence-1" ["context:read"] defaultRoots =
      .error .indexError :=
    contextAuthority_eq_error (by decide)
  refine ⟨⟨proper _ (by decide) inside.1, inside.2.2.1, built, ?_⟩,
    ⟨proper _ (by decide) inside.2.1, inside.2.2.2, by decide, ?_, ?_⟩⟩
  · rintro ⟨permitted, answer, -⟩
    obtain ⟨authority, other, -⟩ := bind_ok.1 answer
    rw [built] at other
    cases other
  · intro authority
    have raised : validateRelativePath "./" false = .error .indexError := by decide
    rw [ContextAuthority.permitsPath, raised]
    rfl
  · rintro ⟨permitted, answer, -⟩
    obtain ⟨authority, -, answer⟩ := bind_ok.1 answer
    exact permitsPath_ne_ok (by decide) answer

end Views

end SimplicioFast
