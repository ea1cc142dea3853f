import SimplicioFast.Lib.Lists
import SimplicioFast.Workspace.Leases

/-!
# What leases rely on

A call of `acquire_lease` that found the manifest of a generation relies on its files from then on.  A collection
that removes protects the leases that it listed and has read (`Collects`), which is what its own steps need and what
the steps of other calls keep: the clock does not run backwards, and a lease that is published later has a name that
no collection has listed.
-/

namespace SimplicioFast

namespace Workspace

variable {w w' : World} {i k : ℕ} {c c' : Caller} {generation : PyStr} {g : Collection} {name : LeaseName}
  {seen files : List PyStr} {expiresAt : Expiry} {fails cached : Bool} {e : Event}

/-! ## The law and its condition -/

/-- The call returned a lease that is neither released nor expired. -/
def Caller.leases (c : Caller) (now : ℚ) (generation : PyStr) : Prop :=
  ∃ ttl seen expiresAt, c.op = .acquire generation ttl ∧ c.pc = .returned seen expiresAt ∧ c.released = false ∧
    (now : Expiry) < expiresAt

/-- The call has such a lease or will return one: it found the files of the generation. -/
def Caller.relies (c : Caller) (now : ℚ) (generation : PyStr) (seen : List PyStr) : Prop :=
  ∃ ttl, c.op = .acquire generation ttl ∧ (c.pc = .found seen ∨ (∃ expiresAt, c.pc = .publishing seen expiresAt) ∨
    ∃ expiresAt, c.pc = .returned seen expiresAt ∧ c.released = false ∧ (now : Expiry) < expiresAt)

def World.Keeps (w : World) (generation : PyStr) (seen : List PyStr) : Prop :=
  ∃ d, w.dirs.get? generation = some d ∧ seen ⊆ d.files

/-- A generation with a lease that was returned, is not released and has not expired keeps the files that it had
when it was leased. -/
def World.Survives (w : World) : Prop :=
  ∀ c ∈ w.callers, ∀ generation ttl seen expiresAt, c.op = .acquire generation ttl → c.pc = .returned seen expiresAt →
    c.released = false → (w.now : Expiry) < expiresAt → w.Keeps generation seen

/-- The lease of the call was listed by the collection. -/
def Collection.Lists (g : Collection) (k : ℕ) : Prop := .own k ∈ g.listed

/-- The next step of a collection that removes is safe: it is given no time ahead of the clock, it can read the
unexpired leases, and it removes only a generation that no call found but those whose leases it has listed. -/
def World.SafeCollection (w : World) (fails : Bool) (now : Option ℚ) (pc : At) : Prop :=
  match pc with
  | .starting => w.timeOf now ≤ w.now
  | .scanning g => ∀ (k : ℕ) (c : Caller) generation, g.todo.head? = some (.own k) → w.callers[k]? = some c →
      c.leases w.now generation → fails = false
  | .deleting _ g => ∀ generation, g.candidates.head? = some generation → ∀ (k : ℕ) (c : Caller) seen, w.callers[k]? = some c →
      c.relies w.now generation seen → g.Lists k
  | _ => True

def World.Safe (w : World) : Event → Prop
  | .advance i fails _ => ∀ (c : Caller) now, w.callers[i]? = some c → c.op = .gc now true → w.SafeCollection fails now c.pc
  | _ => True

/-! ## The invariant -/

def At.collection? : At → Option Collection
  | .listing g | .scanning g | .dropping _ g | .browsing g | .testing g | .clearing g | .deleting _ g => some g
  | _ => none

/-- The collection has read all leases. -/
def At.isLate : At → Bool
  | .browsing _ | .testing _ | .clearing _ | .deleting _ _ => true
  | _ => false

def World.HasLease (w : World) (k : ℕ) : Prop := ∃ c, w.callers[k]? = some c ∧ c.pc.isReturned = true

/-- A collection that removes protects the leases that it listed and has read. -/
structure World.Collects (w : World) (pc : At) (g : Collection) : Prop where
  now_le : g.now ≤ w.now
  listed : ∀ k, g.Lists k → w.HasLease k
  protects : ∀ (k : ℕ) (c : Caller) generation, w.callers[k]? = some c → c.leases w.now generation → g.Lists k →
    .own k ∈ g.todo ∨ generation ∈ g.protectedIds
  inside : ∀ name ∈ g.todo, name ∈ g.listed
  early : pc.isLate = false → g.candidates = []
  late : pc.isLate = true → g.todo = []
  apart : ∀ generation ∈ g.candidates, generation ∉ g.protectedIds
  dropping : ∀ (k : ℕ) g', pc = .dropping (.own k) g' → g.Lists k ∧
    ∀ (c : Caller) generation, w.callers[k]? = some c → ¬ c.leases w.now generation

/-- What a safe run keeps. -/
structure World.Inv (w : World) : Prop where
  intact : ∀ (k : ℕ) (c : Caller) generation seen, w.callers[k]? = some c → c.relies w.now generation seen → w.Keeps generation seen
  filed : ∀ (k : ℕ) (c : Caller) generation ttl seen expiresAt, w.callers[k]? = some c → c.op = .acquire generation ttl →
    c.pc = .returned seen expiresAt → c.released = false → (w.now : Expiry) < expiresAt →
    w.own.get? k = some (.lease generation expiresAt)
  named : ∀ (k : ℕ) file, w.own.get? k = some file → w.HasLease k
  releases : ∀ (i : ℕ) (c : Caller) (k : ℕ), w.callers[i]? = some c → c.op = .release (.own k) →
    ∃ d, w.callers[k]? = some d ∧ d.released = true
  collects : ∀ (i : ℕ) (c : Caller) now g, w.callers[i]? = some c → c.op = .gc now true → c.pc.collection? = some g →
    w.Collects c.pc g

theorem World.Inv.survives (h : w.Inv) : w.Survives := by
  intro c mem generation ttl seen expiresAt op pc unreleased unexpired
  obtain ⟨k, hk⟩ := List.mem_iff_getElem?.1 mem
  exact h.intact k c generation seen hk ⟨ttl, op, .inr (.inr ⟨expiresAt, pc, unreleased, unexpired⟩)⟩

theorem relies_of_leases (h : c.leases w.now generation) : ∃ seen, c.relies w.now generation seen := by
  obtain ⟨ttl, seen, expiresAt, op, pc, unreleased, unexpired⟩ := h
  exact ⟨seen, ttl, op, .inr (.inr ⟨expiresAt, pc, unreleased, unexpired⟩)⟩

theorem leases_earlier {now now' : ℚ} (le : now ≤ now') (h : c.leases now' generation) : c.leases now generation := by
  obtain ⟨ttl, seen, expiresAt, op, pc, unreleased, unexpired⟩ := h
  exact ⟨ttl, seen, expiresAt, op, pc, unreleased, (WithTop.coe_le_coe.2 le).trans_lt unexpired⟩

theorem relies_earlier {now now' : ℚ} (le : now ≤ now') (h : c.relies now' generation seen) :
    c.relies now generation seen := by
  obtain ⟨ttl, op, pc | pc | ⟨expiresAt, pc, unreleased, unexpired⟩⟩ := h
  · exact ⟨ttl, op, .inl pc⟩
  · exact ⟨ttl, op, .inr (.inl pc)⟩
  · exact ⟨ttl, op, .inr (.inr ⟨expiresAt, pc, unreleased, (WithTop.coe_le_coe.2 le).trans_lt unexpired⟩)⟩

theorem isReturned_of_leases {now : ℚ} (h : c.leases now generation) : c.pc.isReturned = true := by
  obtain ⟨-, seen, expiresAt, -, pc, -⟩ := h
  rw [pc]
  rfl

/-! ## What a step keeps -/

theorem World.Collects.later {pc : At} (h : w.Collects pc g) (now : w.now ≤ w'.now)
    (kept : ∀ k, w.HasLease k → w'.HasLease k)
    (old : ∀ (k : ℕ) (c : Caller) generation, w'.callers[k]? = some c → c.leases w'.now generation → w.HasLease k →
      ∃ c, w.callers[k]? = some c ∧ c.leases w.now generation) : w'.Collects pc g where
  now_le := h.now_le.trans now
  listed k lists := kept k (h.listed k lists)
  protects k c generation hk leases lists := by
    obtain ⟨c, hk, leases⟩ := old k c generation hk leases (h.listed k lists)
    exact h.protects k c generation hk leases lists
  inside := h.inside
  early := h.early
  late := h.late
  apart := h.apart
  dropping k g' pc := by
    obtain ⟨lists, free⟩ := h.dropping k g' pc
    refine ⟨lists, fun c generation hk leases => ?_⟩
    obtain ⟨c, hk, leases⟩ := old k c generation hk leases (h.listed k lists)
    exact free c generation hk leases

theorem World.Inv.change (h : w.Inv) (hc : w.callers[i]? = some c) {pc : At}
    (callers : w'.callers = w.callers.set i { c with pc := pc }) (now : w'.now = w.now)
    (before : c.pc.isReturned = false) (after : pc.isReturned = false)
    (own : ∀ (k : ℕ) (c : Caller) generation, w.callers[k]? = some c → c.leases w.now generation → w'.own.get? k = w.own.get? k)
    (named : ∀ k file, w'.own.get? k = some file → w.HasLease k)
    (dirs : ∀ (k : ℕ) (c : Caller) generation seen, w.callers[k]? = some c → c.relies w.now generation seen → w'.Keeps generation seen)
    (relies : ∀ generation seen, Caller.relies { c with pc := pc } w.now generation seen → w'.Keeps generation seen)
    (collects : ∀ now g, c.op = .gc now true → pc.collection? = some g → w.Collects pc g) : w'.Inv := by
  have entry (k : ℕ) (d : Caller) (hk : w'.callers[k]? = some d) :
      k = i ∧ d = { c with pc := pc } ∨ k ≠ i ∧ w.callers[k]? = some d := by
    rw [callers, getElem?_set_of_some _ hc] at hk
    split at hk
    · next same => exact .inl ⟨same, (Option.some.inj hk).symm⟩
    · next other => exact .inr ⟨other, hk⟩
  have other (k : ℕ) (d : Caller) (hk : w.callers[k]? = some d) (away : k ≠ i) : w'.callers[k]? = some d := by
    rw [callers, getElem?_set_of_some _ hc, if_neg away, hk]
  have kept (k : ℕ) (has : w.HasLease k) : w'.HasLease k := by
    obtain ⟨d, hk, returned⟩ := has
    refine ⟨d, other k d hk fun same => ?_, returned⟩
    subst same
    rw [hc] at hk
    cases hk
    rw [before] at returned
    cases returned
  have mine (generation : PyStr) : ¬ Caller.leases { c with pc := pc } w.now generation := by
    intro leases
    have returned := isReturned_of_leases leases
    rw [show ({ c with pc := pc } : Caller).pc = pc from rfl, after] at returned
    cases returned
  have old (k : ℕ) (d : Caller) (generation : PyStr) (hk : w'.callers[k]? = some d) (leases : d.leases w'.now generation) :
      w.callers[k]? = some d ∧ d.leases w.now generation := by
    rw [now] at leases
    rcases entry k d hk with ⟨-, rfl⟩ | ⟨-, hk⟩
    · exact absurd leases (mine generation)
    · exact ⟨hk, leases⟩
  have late {pc' : At} {g : Collection} (h : w.Collects pc' g) : w'.Collects pc' g :=
    h.later now.ge kept fun k d generation hk leases _ => ⟨d, old k d generation hk leases⟩
  refine ⟨fun k d generation seen hk rely => ?_, fun k d generation ttl seen expiresAt hk op hpc unreleased unexpired => ?_,
    fun k file found => kept k (named k file found), fun j d k hj op => ?_, fun j d t g hj op hg => ?_⟩
  · rw [now] at rely
    rcases entry k d hk with ⟨-, rfl⟩ | ⟨-, hk⟩
    · exact relies generation seen rely
    · exact dirs k d generation seen hk rely
  · obtain ⟨hk, leases⟩ := old k d generation hk ⟨ttl, seen, expiresAt, op, hpc, unreleased, unexpired⟩
    rw [own k d generation hk leases]
    rw [now] at unexpired
    exact h.filed k d generation ttl seen expiresAt hk op hpc unreleased unexpired
  · have released : ∃ d, w.callers[k]? = some d ∧ d.released = true := by
      rcases entry j d hj with ⟨rfl, rfl⟩ | ⟨-, hj⟩
      · exact h.releases j c k hc op
      · exact h.releases j d k hj op
    obtain ⟨d', hk, released⟩ := released
    by_cases same : k = i
    · subst same
      rw [hc] at hk
      cases hk
      exact ⟨{ c with pc := pc }, by rw [callers, getElem?_set_of_some _ hc, if_pos rfl], released⟩
    · exact ⟨d', other k d' hk same, released⟩
  · rcases entry j d hj with ⟨-, rfl⟩ | ⟨-, hj⟩
    · exact late (collects t g op hg)
    · exact late (h.collects j d t g hj op hg)

theorem World.Inv.goto (h : w.Inv) (hc : w.callers[i]? = some c) {pc : At} (before : c.pc.isReturned = false)
    (after : pc.isReturned = false)
    (relies : ∀ generation seen, Caller.relies { c with pc := pc } w.now generation seen → w.Keeps generation seen)
    (collects : ∀ now g, c.op = .gc now true → pc.collection? = some g → w.Collects pc g) : (w.goto i c pc).Inv :=
  h.change hc rfl rfl before after (fun _ _ _ _ _ => rfl) h.named h.intact relies collects

theorem World.Inv.idle (h : w.Inv) (hc : w.callers[i]? = some c) {pc : At} (before : c.pc.isReturned = false)
    (idle : pc = .raised ∨ pc = .done ∨ pc = .reading ∨ pc = .unlinking) : (w.goto i c pc).Inv := by
  refine h.goto hc before ?_ (fun generation seen rely => ?_) fun now g op hg => ?_
  · rcases idle with rfl | rfl | rfl | rfl <;> rfl
  · obtain ⟨ttl, -, found | ⟨_, publishing⟩ | ⟨_, returned, -⟩⟩ := rely
    · rcases idle with rfl | rfl | rfl | rfl <;> cases found
    · rcases idle with rfl | rfl | rfl | rfl <;> cases publishing
    · rcases idle with rfl | rfl | rfl | rfl <;> cases returned
  · rcases idle with rfl | rfl | rfl | rfl <;> cases hg

/-! ## `acquire_lease` and `release_lease` -/

theorem keeps_of_withManifest {d : Directory} (found : w.withManifest generation = some d) : w.Keeps generation d.files :=
  ⟨d, (Option.filter_eq_some_iff.1 found).1, List.Subset.refl _⟩

theorem World.Inv.found (h : w.Inv) (hc : w.callers[i]? = some c) {ttl : Expiry} (op : c.op = .acquire generation ttl)
    (before : c.pc.isReturned = false) (keeps : w.Keeps generation seen) : (w.goto i c (.found seen)).Inv := by
  refine h.goto hc before rfl (fun generation' seen' rely => ?_) fun now g _ hg => by cases hg
  obtain ⟨ttl', op', pc⟩ := rely
  obtain ⟨rfl, -⟩ := Op.acquire.inj (op.symm.trans op')
  rcases pc with pc | ⟨_, pc⟩ | ⟨_, pc, -⟩
  · cases pc
    exact keeps
  · cases pc
  · cases pc

theorem World.Inv.check (h : w.Inv) (hc : w.callers[i]? = some c) {ttl : Expiry} (op : c.op = .acquire generation ttl)
    (before : c.pc.isReturned = false) : (w.check i c generation fails cached).Inv := by
  unfold World.check
  split
  · split
    · next d found =>
      have found : w.withManifest generation = some d := (Option.ite_none_left_eq_some.1 found).2
      split
      · exact h.found hc op before (keeps_of_withManifest found)
      · exact h.idle hc before (.inr (.inr (.inl rfl)))
    · exact h.idle hc before (.inr (.inr (.inl rfl)))
  · exact h.idle hc before (.inl rfl)

theorem World.Inv.read (h : w.Inv) (hc : w.callers[i]? = some c) {ttl : Expiry} (op : c.op = .acquire generation ttl)
    (before : c.pc.isReturned = false) : (w.read i c generation fails).Inv := by
  unfold World.read
  split
  · next d found =>
    have found : w.withManifest generation = some d := (Option.ite_none_left_eq_some.1 found).2
    split
    · exact h.found hc op before (keeps_of_withManifest found)
    · exact h.idle hc before (.inl rfl)
  · exact h.idle hc before (.inl rfl)

theorem World.Inv.timed (h : w.Inv) (hc : w.callers[i]? = some c) (pc : c.pc = .found seen) (expiresAt : Expiry) :
    (w.goto i c (.publishing seen expiresAt)).Inv := by
  refine h.goto hc (by rw [pc]; rfl) rfl (fun generation seen' rely => ?_) fun now g _ hg => by cases hg
  obtain ⟨ttl, op, pc' | ⟨_, pc'⟩ | ⟨_, pc', -⟩⟩ := rely
  · cases pc'
  · cases pc'
    exact h.intact i c generation seen hc ⟨ttl, op, .inl pc⟩
  · cases pc'

theorem World.Inv.publish (h : w.Inv) (hc : w.callers[i]? = some c) {ttl : Expiry} (op : c.op = .acquire generation ttl)
    (pc : c.pc = .publishing seen expiresAt) : (w.publish i c generation seen expiresAt fails).Inv := by
  have before : c.pc.isReturned = false := by rw [pc]; rfl
  unfold World.publish
  split
  · exact h.idle hc before (.inl rfl)
  · have entry (k : ℕ) (d : Caller) (hk : (w.callers.set i { c with pc := .returned seen expiresAt })[k]? = some d) :
        k = i ∧ d = { c with pc := .returned seen expiresAt } ∨ k ≠ i ∧ w.callers[k]? = some d := by
      rw [getElem?_set_of_some _ hc] at hk
      split at hk
      · next same => exact .inl ⟨same, (Option.some.inj hk).symm⟩
      · next other => exact .inr ⟨other, hk⟩
    have other (k : ℕ) (d : Caller) (hk : w.callers[k]? = some d) (away : k ≠ i) :
        (w.callers.set i { c with pc := .returned seen expiresAt })[k]? = some d := by
      rw [getElem?_set_of_some _ hc, if_neg away, hk]
    have mine : (w.callers.set i { c with pc := .returned seen expiresAt })[i]? =
        some { c with pc := .returned seen expiresAt } := by
      rw [getElem?_set_of_some _ hc, if_pos rfl]
    have unnamed : ¬ w.HasLease i := by
      rintro ⟨d, hd, returned⟩
      rw [hc] at hd
      cases hd
      rw [before] at returned
      cases returned
    have kept (k : ℕ) (has : w.HasLease k) : (({ w with own := w.own.set i (.lease generation expiresAt) } : World).goto
        i c (.returned seen expiresAt)).HasLease k := by
      obtain ⟨d, hk, returned⟩ := has
      refine ⟨d, other k d hk fun same => ?_, returned⟩
      subst same
      exact unnamed ⟨d, hk, returned⟩
    refine ⟨fun k d generation' seen' hk rely => ?_, fun k d generation' ttl' seen' e hk op' pc' unreleased unexpired => ?_,
      fun k file named => ?_, fun j d k hj op' => ?_, fun j d now g hj op' hg => ?_⟩
    · rcases entry k d hk with ⟨-, rfl⟩ | ⟨-, hk⟩
      · obtain ⟨ttl', op', pc' | ⟨_, pc'⟩ | ⟨_, pc', -⟩⟩ := rely
        · cases pc'
        · cases pc'
        · cases pc'
          exact h.intact i c generation' seen hc ⟨ttl', op', .inr (.inl ⟨expiresAt, pc⟩)⟩
      · exact h.intact k d generation' seen' hk rely
    · rcases entry k d hk with ⟨rfl, rfl⟩ | ⟨away, hk⟩
      · obtain ⟨rfl, -⟩ := Op.acquire.inj (op.symm.trans op')
        cases pc'
        exact Dict.get?_set_self _ _ _
      · exact (Dict.get?_set_of_ne _ _ away).trans (h.filed k d generation' ttl' seen' e hk op' pc' unreleased unexpired)
    · by_cases same : k = i
      · subst same
        exact ⟨_, mine, rfl⟩
      · have named : (w.own.set i (.lease generation expiresAt)).get? k = some file := named
        rw [Dict.get?_set_of_ne _ _ same] at named
        exact kept k (h.named k file named)
    · have away : j ≠ i := by
        rintro rfl
        rcases entry j d hj with ⟨-, rfl⟩ | ⟨other, -⟩
        · have op' : c.op = .release (.own k) := op'
          rw [op] at op'
          cases op'
        · exact other rfl
      rcases entry j d hj with ⟨same, -⟩ | ⟨-, hj⟩
      · exact absurd same away
      · obtain ⟨d', hk, released⟩ := h.releases j d k hj op'
        by_cases same : k = i
        · subst same
          rw [hc] at hk
          cases hk
          exact ⟨_, mine, released⟩
        · exact ⟨d', other k d' hk same, released⟩
    · rcases entry j d hj with ⟨-, rfl⟩ | ⟨-, hj⟩
      · cases hg
      · refine (h.collects j d now g hj op' hg).later le_rfl kept fun k d generation' hk leases has => ?_
        rcases entry k d hk with ⟨rfl, -⟩ | ⟨-, hk⟩
        · exact absurd has unnamed
        · exact ⟨d, hk, leases⟩

theorem own_unlink (free : ∀ k, name = .own k → ∀ (c : Caller) generation, w.callers[k]? = some c →
    ¬ c.leases w.now generation) (hk : w.callers[k]? = some c) (leases : c.leases w.now generation) :
    (w.unlink name).own.get? k = w.own.get? k := by
  cases name with
  | foreign name => rfl
  | own call =>
    refine (Dict.get?_erase _ _ _).trans (if_neg fun same => ?_)
    subst same
    exact free k rfl c generation hk leases

theorem named_unlink (h : w.Inv) {file : LeaseFile} (found : (w.unlink name).own.get? k = some file) : w.HasLease k := by
  cases name with
  | foreign name => exact h.named k file found
  | own call =>
    have found : (w.own.erase call).get? k = some file := found
    rw [Dict.get?_erase] at found
    split at found
    · cases found
    · exact h.named k file found

theorem World.Inv.release (h : w.Inv) (hc : w.callers[i]? = some c) {lease : LeaseName} (op : c.op = .release lease)
    (before : c.pc.isReturned = false) : ((w.unlink lease).goto i c .done).Inv := by
  have dirs : (w.unlink lease).dirs = w.dirs := by cases lease <;> rfl
  have keeps {generation : PyStr} {seen : List PyStr} (keeps : w.Keeps generation seen) :
      ((w.unlink lease).goto i c .done).Keeps generation seen := by
    obtain ⟨d, found, sub⟩ := keeps
    exact ⟨d, (congrArg (fun m => Dict.get? m generation) dirs).trans found, sub⟩
  refine h.change hc (by cases lease <;> rfl) (by cases lease <;> rfl) before rfl (fun k d generation hk leases => ?_)
    (fun k file found => named_unlink h found) (fun k d generation seen hk rely => keeps (h.intact k d generation seen hk rely))
    (fun generation seen rely => ?_) fun now g _ hg => by cases hg
  · refine own_unlink (fun k' same d' generation' hk' leases' => ?_) hk leases
    subst same
    obtain ⟨d'', hk'', released⟩ := h.releases i c k' hc op
    rw [hk'] at hk''
    cases hk''
    obtain ⟨-, -, -, -, -, unreleased, -⟩ := leases'
    rw [released] at unreleased
    cases unreleased
  · obtain ⟨ttl, op', -⟩ := rely
    have op' : c.op = .acquire generation ttl := op'
    rw [op] at op'
    cases op'

end Workspace

end SimplicioFast
