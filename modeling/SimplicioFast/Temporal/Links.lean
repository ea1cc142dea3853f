import Mathlib.Data.List.Chain
import SimplicioFast.Lib.Literals
import SimplicioFast.Lib.Sha256Eval
import SimplicioFast.Temporal.History

/-!
# The links between versions

A call of an overlay adds its versions one after another (`exists_pushes`), each behind the version that it
closes.  So the versions of a fact follow one another without a gap, and each names the digest of the one before
it as that one now stands (`Chained`), as long as no fact is renamed to itself: the tombstone of such a rename
closes a version in the world sequence in which it begins.

The link in the other direction names the digest of a version as it was when it was open.  Closing that version
changes its digest, and so does a rename with the version that its new fact names as predecessor.
-/

namespace SimplicioFast

/-- The text has no lone surrogate, so that UTF-8 encodes it. -/
def PyStr.Plain (s : PyStr) : Prop := ∀ n, .surrogate n ∉ s

namespace BitemporalOverlay

variable {s s' : BitemporalOverlay} {id : PyStr} {args : FactArgs} {state : FactState} {world : ℤ}
  {call : BitemporalOverlay.Call}

/-! ## The versions that a call adds -/

/-- A version to be added. -/
structure Push where
  id : PyStr
  args : FactArgs
  state : FactState
  world : ℤ

def pushed (s : BitemporalOverlay) (p : Push) : BitemporalOverlay := (s.push p.id p.args p.state p.world).2

/-- The version passes the checks of `append`, and begins after the open version of its fact. -/
structure Admits (s : BitemporalOverlay) (p : Push) : Prop where
  id : p.id.isSha256 = true
  sha : p.args.sourceSha256.isSha256 = true
  artifact : p.args.artifactDigest.isSha256 = true
  positive : 1 ≤ p.world
  forward : s.worldSequence ≤ p.world
  begun : ∀ f, s.current p.id = some f → f.validFrom < p.world

theorem validateDigest_eq_ok {field value : PyStr} (h : validateDigest field value = .ok ()) :
    value.isSha256 = true := by
  unfold validateDigest at h
  split_ifs at h with valid
  exact valid

theorem checkAppend_digests {allowSameWorld : Bool}
    (h : s.checkAppend id args allowSameWorld = .ok (state, world)) :
    id.isSha256 = true ∧ args.sourceSha256.isSha256 = true ∧ args.artifactDigest.isSha256 = true := by
  obtain ⟨_, first, h⟩ := bind_ok.1 h
  obtain ⟨_, second, h⟩ := bind_ok.1 h
  obtain ⟨_, third, -⟩ := bind_ok.1 h
  exact ⟨validateDigest_eq_ok first, validateDigest_eq_ok second, validateDigest_eq_ok third⟩

theorem validFrom_le (wf : s.WellFormed) {f : BitemporalFact} (h : s.current id = some f) :
    f.validFrom ≤ s.worldSequence := by
  obtain ⟨closed, -, versions⟩ := exists_of_current wf h
  exact (versions.begun f (List.mem_append_right _ List.mem_cons_self)).2

theorem pushed_of_append (wf : s.WellFormed) {allowSameWorld : Bool} {f : BitemporalFact}
    (h : s.append id args allowSameWorld = .ok (f, s'))
    (same : allowSameWorld = true → 1 ≤ s.worldSequence ∧ ∀ f, s.current id = some f → f.validFrom < s.worldSequence) :
    ∃ state world, s.checkAppend id args allowSameWorld = .ok (state, world) ∧ s' = s.pushed ⟨id, args, state, world⟩ ∧
      f = (s.push id args state world).1 ∧ s.Admits ⟨id, args, state, world⟩ := by
  obtain ⟨state, world, checked, e⟩ := append_eq_ok h
  obtain ⟨valid, sha, artifact⟩ := checkAppend_digests checked
  obtain ⟨-, le, lt⟩ := checkAppend_eq_ok checked
  have zero := wf.1
  refine ⟨state, world, checked, ?_, ?_, valid, sha, artifact, ?_, le, fun g found => ?_⟩
  · rw [pushed, e]
  · rw [e]
  · cases allowSameWorld with
    | false =>
      have strict := lt rfl
      show 1 ≤ world
      omega
    | true => exact (same rfl).1.trans le
  · cases allowSameWorld with
    | false => exact (validFrom_le wf found).trans_lt (lt rfl)
    | true => exact ((same rfl).2 g found).trans_le le

theorem WellFormed.pushed (wf : s.WellFormed) {p : Push} (admits : s.Admits p) : (s.pushed p).WellFormed :=
  wf.push admits.forward admits.positive p.args p.state p.id

theorem current_pushed_of_ne (s : BitemporalOverlay) (p : Push) (other : id ≠ p.id) :
    (s.pushed p).current id = s.current id := by
  have facts : (s.pushed p).facts.get? id = s.facts.get? id := by
    unfold BitemporalOverlay.pushed BitemporalOverlay.push
    split <;> exact Dict.get?_set_of_ne _ _ other
  rw [current, current, facts]

def Call.RenamesItself : Call → Prop
  | .rename old new _ _ _ => old = new
  | _ => False

/-- The version stores no text with a lone surrogate; the predecessor that is given is stored when the fact has no
open version. -/
structure Plain (s : BitemporalOverlay) (id : PyStr) (args : FactArgs) : Prop where
  commit : args.sourceCommit.Plain
  reason : ∀ t ∈ args.reasonCode, PyStr.Plain t
  dependencies : ∀ t ∈ args.dependencies, PyStr.Plain t
  provenance : ∀ n, ¬ args.provenance.toJson.HasSurrogate n
  predecessor : s.current id = none → ∀ t ∈ args.predecessor, PyStr.Plain t

/-- The facts that `invalidate_dependencies` holds for the changed ids. -/
def held (s : BitemporalOverlay) (changedIds : List PyStr) : List BitemporalFact :=
  s.affected ((changedIds.filter (· ≠ [])).dedup.insertionSort (· ≤ ·))

/-- The call stores no text with a lone surrogate. -/
def Clean (s : BitemporalOverlay) : Call → Prop
  | .append id args => s.Plain id args
  | .tombstone _ commit _ reason successor _ => commit.Plain ∧ reason.Plain ∧ ∀ t ∈ successor, PyStr.Plain t
  | .rename _ _ commit _ _ => commit.Plain
  | .invalidateDependencies changed commit _ reason _ => s.held changed = [] ∨ commit.Plain ∧ reason.Plain

theorem plain_digest (f : BitemporalFact) : f.digest.Plain := fun n => Json.surrogate_notMem_ofChars n _

theorem plain_single {t : PyStr} (plain : t.Plain) (n : Fin 2048) :
    ¬ (JsonObject.single "successor" (.str t) trivial).toJson.HasSurrogate n := by
  rintro ((key | text) | none)
  · exact Json.surrogate_notMem_ofChars n _ key
  · exact plain n text
  · exact none

theorem tombstone_eq_ok {commit sha reason : PyStr} {successor : Option PyStr} {validFrom : Option ℤ}
    {allowSameWorld : Bool} {f : BitemporalFact}
    (h : s.tombstone id commit sha reason successor validFrom allowSameWorld = .ok (f, s')) :
    ∃ args : FactArgs, s.append id args allowSameWorld = .ok (f, s') ∧ args.sourceCommit = commit ∧
      args.reasonCode = some reason ∧ args.predecessor = none ∧ args.dependencies = [] ∧
      (args.provenance = .empty ∨ ∃ t ∈ successor, args.provenance = JsonObject.single "successor" (.str t) trivial) := by
  unfold BitemporalOverlay.tombstone at h
  split at h
  · cases h
  · split_ifs at h
    refine ⟨_, h, rfl, rfl, rfl, rfl, ?_⟩
    split
    · next t =>
      dsimp only
      split_ifs
      · exact .inl rfl
      · exact .inr ⟨t, rfl, rfl⟩
    · exact .inl rfl

/-- The versions are added one after another, each admitted, and plain when `clean` holds. -/
def Adds (clean : Prop) (s s' : BitemporalOverlay) : Prop :=
  ∃ ps : List Push, s' = Machine.run pushed s ps ∧
    Machine.Along pushed (fun t p => t.Admits p ∧ (clean → t.Plain p.id p.args)) s ps

theorem Adds.refl (clean : Prop) (s : BitemporalOverlay) : Adds clean s s := ⟨[], rfl, trivial⟩

theorem Adds.trans {clean : Prop} {s'' : BitemporalOverlay} (h : Adds clean s s') (h' : Adds clean s' s'') :
    Adds clean s s'' := by
  obtain ⟨ps, rfl, admitted⟩ := h
  obtain ⟨qs, rfl, admitted'⟩ := h'
  exact ⟨ps ++ qs, by rw [Machine.run_append], Machine.along_append.2 ⟨admitted, admitted'⟩⟩

theorem adds_one {clean : Prop} {p : Push} (admits : s.Admits p) (plain : clean → s.Plain p.id p.args) :
    Adds clean s (s.pushed p) := ⟨[p], rfl, ⟨admits, plain⟩, trivial⟩

theorem plain_empty (n : Fin 2048) : ¬ JsonObject.empty.toJson.HasSurrogate n := id

theorem adds_hold {clean : Prop} {commit sha reason : PyStr} (fs : List BitemporalFact) (validFrom : Option ℤ)
    (wf : s.WellFormed) (plain : clean → fs ≠ [] → commit.Plain ∧ reason.Plain) :
    Adds clean s (hold commit sha reason s validFrom fs).2 := by
  induction fs generalizing s validFrom with
  | nil => exact .refl clean s
  | cons f fs ih =>
    rw [hold]
    split
    · exact .refl clean s
    · next g s' h =>
      obtain ⟨state, world, -, rfl, -, admits⟩ := pushed_of_append wf h fun same => by cases same
      refine (adds_one admits fun c => ?_).trans (ih none (wf.pushed admits) fun c _ => plain c (List.cons_ne_nil f fs))
      obtain ⟨commit, reason⟩ := plain c (List.cons_ne_nil f fs)
      refine ⟨commit, fun t mem => ?_, List.forall_mem_nil _, plain_empty, fun _ _ none => (by cases none)⟩
      cases mem
      exact reason

theorem adds_step (wf : s.WellFormed) (call : Call) (other : ¬ call.RenamesItself) :
    Adds (s.Clean call) s (s.step call) := by
  cases call with
  | append id args =>
    rw [step]
    cases h : s.append id args with
    | error x => exact .refl _ s
    | ok r =>
      obtain ⟨f, s'⟩ := r
      obtain ⟨state, world, -, rfl, -, admits⟩ := pushed_of_append wf h fun same => by cases same
      exact adds_one admits fun clean => clean
  | tombstone id commit sha reason successor validFrom =>
    rw [step]
    cases h : s.tombstone id commit sha reason successor validFrom with
    | error x => exact .refl _ s
    | ok r =>
      obtain ⟨f, s'⟩ := r
      obtain ⟨args, h, hcommit, hreason, hpredecessor, hdependencies, hprovenance⟩ := tombstone_eq_ok h
      obtain ⟨state, world, -, rfl, -, admits⟩ := pushed_of_append wf h fun same => by cases same
      refine adds_one admits fun clean => ⟨?_, ?_, ?_, fun n => ?_, ?_⟩
      · rw [hcommit]
        exact clean.1
      · rw [hreason]
        rintro t ⟨⟩
        exact clean.2.1
      · rw [hdependencies]
        exact List.forall_mem_nil _
      · rcases hprovenance with e | ⟨t, given, e⟩
        · rw [e]
          exact plain_empty n
        · rw [e]
          exact plain_single (clean.2.2 t given) n
      · rw [hpredecessor]
        exact fun _ _ none => by cases none
  | rename old new commit sha digest =>
    rw [step, rename]
    split
    · exact .refl _ s
    · next current hcurrent =>
      split_ifs with inactive
      · exact .refl _ s
      · split
        · exact .refl _ s
        · next replacement s' h =>
          obtain ⟨state, world, checked, rfl, -, admits⟩ := pushed_of_append wf h fun same => by cases same
          have plain (clean : commit.Plain) : s.Plain new
              { sourceCommit := commit
                sourceSha256 := sha
                artifactDigest := digest
                predecessor := some current.digest } := by
            refine ⟨clean, fun _ none => (by cases none), List.forall_mem_nil _, plain_empty, fun _ t mem => ?_⟩
            cases mem
            exact plain_digest current
          have first := @adds_one s (s.Clean (.rename old new commit sha digest)) _ admits plain
          split
          · exact first
          · next g s'' h' =>
            obtain ⟨args, h', hcommit, hreason, hpredecessor, hdependencies, hprovenance⟩ := tombstone_eq_ok h'
            have later := (checkAppend_eq_ok checked).2.2 rfl
            have zero := wf.1
            -- the old fact is as before, and its open version is older than the rename
            obtain ⟨state', world', -, rfl, -, admits'⟩ := pushed_of_append (wf.pushed admits) h' fun _ => by
              refine ⟨?_, fun f found => ?_⟩
              · show 1 ≤ world
                omega
              · rw [current_pushed_of_ne _ _ (show old ≠ new from other)] at found
                exact (validFrom_le wf found).trans_lt later
            refine first.trans (adds_one admits' fun clean => ⟨?_, ?_, ?_, fun n => ?_, ?_⟩)
            · rw [hcommit]
              exact clean
            · rw [hreason]
              rintro t ⟨⟩
              exact fun n => Json.surrogate_notMem_ofChars n _
            · rw [hdependencies]
              exact List.forall_mem_nil _
            · rcases hprovenance with e | ⟨t, given, e⟩
              · rw [e]
                exact plain_empty n
              · rw [e]
                cases given
                exact plain_single (plain_digest replacement) n
            · rw [hpredecessor]
              exact fun _ _ none => by cases none
  | invalidateDependencies changed commit sha reason validFrom =>
    refine adds_hold _ validFrom wf fun clean some => ?_
    rcases clean with none | plain
    · exact absurd none some
    · exact plain

/-! ## Versions behind one another -/

/-- The version begins where the one before it ends, and names its digest. -/
def Follows (f g : BitemporalFact) : Prop := f.validTo = some g.validFrom ∧ g.predecessor = some f.digest

/-- The versions of every fact follow one another, none is empty, and all belong to the overlay. -/
structure Chained (s : BitemporalOverlay) : Prop where
  wellFormed : s.WellFormed
  chain : ∀ id versions, s.facts.get? id = some versions → versions.IsChain Follows
  ordered : ∀ id versions, s.facts.get? id = some versions →
    ∀ f ∈ versions, ∀ t, f.validTo = some t → f.validFrom < t
  scope : ∀ id versions, s.facts.get? id = some versions → ∀ f ∈ versions,
    f.repository = s.repository ∧ f.baseGeneration = s.baseGeneration ∧ f.overlayGeneration = s.overlayGeneration

theorem get?_pushed (wf : s.WellFormed) (p : Push) {versions : List BitemporalFact}
    (found : (s.pushed p).facts.get? id = some versions) :
    id ≠ p.id ∧ s.facts.get? id = some versions ∨
    id = p.id ∧ s.facts.get? id = none ∧
      versions = [s.newFact p.id p.args p.state p.world p.args.predecessor] ∨
    id = p.id ∧ ∃ closed last, s.facts.get? id = some (closed ++ [last]) ∧ last.validTo = none ∧
      ∃ fact, fact = s.newFact p.id p.args p.state p.world
          (some (close last p.state p.world (s.observedSequence + 1)).digest) ∧
        versions = closed ++ [link (close last p.state p.world (s.observedSequence + 1)) fact] ++ [fact] := by
  by_cases same : id = p.id
  · subst same
    right
    cases before : s.facts.get? p.id with
    | none =>
      left
      rw [BitemporalOverlay.pushed, push_of_new before] at found
      exact ⟨rfl, rfl, (Option.some.inj ((Dict.get?_set_self _ _ _).symm.trans found)).symm⟩
    | some history =>
      right
      obtain ⟨closed, last, rfl, wellFormed⟩ := wf.2 p.id _ before
      obtain ⟨fact, hfact, e⟩ := push_of_open before wellFormed.isOpen p.args p.state p.world
      rw [BitemporalOverlay.pushed, e] at found
      exact ⟨rfl, closed, last, rfl, wellFormed.isOpen, fact, hfact,
        (Option.some.inj ((Dict.get?_set_self _ _ _).symm.trans found)).symm⟩
  · left
    refine ⟨same, ?_⟩
    unfold BitemporalOverlay.pushed BitemporalOverlay.push at found
    split at found <;> rwa [Dict.get?_set_of_ne _ _ same] at found

theorem Chained.pushed (h : s.Chained) {p : Push} (admits : s.Admits p) : (s.pushed p).Chained where
  wellFormed := h.wellFormed.pushed admits
  chain id versions found := by
    rcases get?_pushed h.wellFormed p found with ⟨-, before⟩ | ⟨-, -, rfl⟩ |
      ⟨rfl, closed, last, before, isOpen, fact, rfl, rfl⟩
    · exact h.chain id versions before
    · exact List.isChain_singleton _
    · have old := h.chain _ _ before
      rw [List.isChain_append] at old ⊢
      rw [List.isChain_append]
      refine ⟨⟨old.1, List.isChain_singleton _, fun f hf g hg => ?_⟩, List.isChain_singleton _, fun f hf g hg => ?_⟩
      · obtain rfl := Option.mem_some_iff.1 hg
        exact old.2.2 f hf last rfl
      · rw [List.getLast?_concat] at hf
        obtain rfl := Option.mem_some_iff.1 hf
        obtain rfl := Option.mem_some_iff.1 hg
        exact ⟨rfl, rfl⟩
  ordered id versions found f mem t closes := by
    rcases get?_pushed h.wellFormed p found with ⟨-, before⟩ | ⟨-, -, rfl⟩ |
      ⟨rfl, closed, last, before, isOpen, fact, rfl, rfl⟩
    · exact h.ordered id versions before f mem t closes
    · obtain rfl := List.mem_singleton.1 mem
      cases closes
    · rcases List.mem_append.1 mem with mem | mem
      · rcases List.mem_append.1 mem with mem | mem
        · exact h.ordered _ _ before f (List.mem_append_left _ mem) t closes
        · obtain rfl := List.mem_singleton.1 mem
          cases closes
          exact admits.begun last (current_of_get? before isOpen)
      · obtain rfl := List.mem_singleton.1 mem
        cases closes
  scope id versions found f mem := by
    rcases get?_pushed h.wellFormed p found with ⟨-, before⟩ | ⟨-, -, rfl⟩ |
      ⟨rfl, closed, last, before, isOpen, fact, rfl, rfl⟩
    · exact h.scope id versions before f mem
    · obtain rfl := List.mem_singleton.1 mem
      exact ⟨rfl, rfl, rfl⟩
    · rcases List.mem_append.1 mem with mem | mem
      · rcases List.mem_append.1 mem with mem | mem
        · exact h.scope _ _ before f (List.mem_append_left _ mem)
        · obtain rfl := List.mem_singleton.1 mem
          exact h.scope _ _ before last (List.mem_append_right _ List.mem_cons_self)
      · obtain rfl := List.mem_singleton.1 mem
        exact ⟨rfl, rfl, rfl⟩

/-- The versions of a fact, oldest first. -/
def versionsOf (s : BitemporalOverlay) (id : PyStr) : List BitemporalFact := (s.facts.get? id).getD []

/-- Each version names the digest of the next one as that one now stands. -/
def Linked (s : BitemporalOverlay) : Prop :=
  ∀ id versions, s.facts.get? id = some versions → versions.IsChain fun f g => f.successor = some g.digest

/-- What was renamed names the digest of a version that the old id has. -/
def RenamesLinked (s : BitemporalOverlay) (calls : List Call) : Prop :=
  ∀ before after old new commit sha digest, calls = before ++ .rename old new commit sha digest :: after →
    ∀ r s', (Machine.run step s before).rename old new commit sha digest = (.ok r, s') →
      ∃ f ∈ (Machine.run step s calls).versionsOf old, r.predecessor = some f.digest

/-- The links of the overlay that the calls lead to name versions that exist. -/
def LinksExist (s : BitemporalOverlay) (calls : List Call) : Prop :=
  (Machine.run step s calls).Linked ∧ s.RenamesLinked calls

/-- The facts to which a call adds versions. -/
def targets (s : BitemporalOverlay) : Call → List PyStr
  | .append id _ => [id]
  | .tombstone id _ _ _ _ _ => [id]
  | .rename old new _ _ _ => [new, old]
  | .invalidateDependencies changed _ _ _ _ => (s.held changed).map BitemporalFact.canonicalId

def Call.isRename : Call → Bool
  | .rename _ _ _ _ _ => true
  | _ => false

/-- The call leaves the overlay as it is, or it is no rename and adds first and second versions only. -/
def Fresh (s : BitemporalOverlay) (call : Call) : Prop :=
  s.step call = s ∨ call.isRename = false ∧ ∀ id ∈ s.targets call, (s.versionsOf id).length ≤ 1

theorem Linked.pushed (h : s.Linked) (wf : s.WellFormed) {p : Push} (short : (s.versionsOf p.id).length ≤ 1) :
    (s.pushed p).Linked := by
  intro id versions found
  rcases get?_pushed wf p found with ⟨-, before⟩ | ⟨-, -, rfl⟩ | ⟨rfl, closed, last, before, isOpen, fact, -, rfl⟩
  · exact h id versions before
  · exact List.isChain_singleton _
  · have none : closed = [] := by
      rw [versionsOf, before, Option.getD_some, List.length_append, List.length_singleton] at short
      exact List.eq_nil_of_length_eq_zero (by omega)
    subst none
    exact List.isChain_cons_cons.2 ⟨rfl, List.isChain_singleton _⟩

theorem versionsOf_pushed_of_ne (s : BitemporalOverlay) (p : Push) (other : id ≠ p.id) :
    (s.pushed p).versionsOf id = s.versionsOf id := by
  unfold versionsOf BitemporalOverlay.pushed BitemporalOverlay.push
  split <;> rw [Dict.get?_set_of_ne _ _ other]

theorem linked_hold {commit sha reason : PyStr} (fs : List BitemporalFact) (validFrom : Option ℤ)
    (h : s.Linked) (wf : s.WellFormed) (nodup : (fs.map BitemporalFact.canonicalId).Nodup)
    (short : ∀ f ∈ fs, (s.versionsOf f.canonicalId).length ≤ 1) :
    (hold commit sha reason s validFrom fs).2.Linked := by
  induction fs generalizing s validFrom with
  | nil => exact h
  | cons f fs ih =>
    rw [hold]
    split
    · exact h
    · next g s' added =>
      obtain ⟨state, world, -, rfl, -, admits⟩ := pushed_of_append wf added fun same => by cases same
      obtain ⟨first, rest⟩ := List.forall_mem_cons.1 short
      obtain ⟨apart, nodup⟩ := List.nodup_cons.1 nodup
      refine ih none (h.pushed wf first) (wf.pushed admits) nodup fun f' mem => ?_
      rw [versionsOf_pushed_of_ne _ _ fun e => ?_]
      · exact rest f' mem
      · exact apart (List.mem_map.2 ⟨f', mem, e⟩)

theorem filterMap_sublist_keys {κ ν β : Type} {l : List (κ × ν)} {g : ν → Option β} {key : β → κ}
    (named : ∀ e ∈ l, ∀ b, g e.2 = some b → key b = e.1) :
    (((l.map Prod.snd).filterMap g).map key).Sublist (l.map Prod.fst) := by
  induction l with
  | nil => exact .slnil
  | cons e l ih =>
    obtain ⟨first, rest⟩ := List.forall_mem_cons.1 named
    rw [List.map_cons, List.map_cons, List.filterMap_cons]
    split
    · exact (ih rest).cons _
    · next b taken =>
      rw [List.map_cons, first b taken]
      exact (ih rest).cons_cons _

theorem nodup_held (wf : s.WellFormed) (changed : List PyStr) :
    ((s.held changed).map BitemporalFact.canonicalId).Nodup := by
  unfold held affected
  rw [((List.perm_insertionSort _ _).map _).nodup_iff]
  refine List.Nodup.sublist (filterMap_sublist_keys fun e mem f taken => ?_) s.facts.nodup
  have found : s.facts.get? e.1 = some e.2 := (Dict.get?_eq_some_iff _ _ _).2 mem
  obtain ⟨closed, last, ends, versions⟩ := wf.2 e.1 e.2 found
  have named := versions.canonicalId last (List.mem_append_right _ List.mem_cons_self)
  rw [ends, List.getLast?_concat] at taken
  rw [ends] at found
  have taken : (if last.state = .active ∧ ∃ d ∈ last.dependencies,
      d ∈ (changed.filter (· ≠ [])).dedup.insertionSort (· ≤ ·) then some last else none) = some f := by
    rw [← taken]
    show _ = Option.bind (some last) _
    rw [Option.bind_some, named, current_of_get? found versions.isOpen]
    rfl
  obtain ⟨-, same⟩ := Option.ite_none_right_eq_some.1 taken
  rw [← Option.some.inj same]
  exact named

theorem Linked.step (h : s.Linked) (wf : s.WellFormed) {call : Call} (fresh : s.Fresh call) :
    (s.step call).Linked := by
  rcases fresh with same | ⟨rename, short⟩
  · rwa [same]
  · cases call with
    | append id args =>
      rw [BitemporalOverlay.step]
      cases added : s.append id args with
      | error x => exact h
      | ok r =>
        obtain ⟨f, s'⟩ := r
        obtain ⟨state, world, -, rfl, -, -⟩ := pushed_of_append wf added fun same => by cases same
        exact h.pushed wf (short id List.mem_cons_self)
    | tombstone id commit sha reason successor validFrom =>
      rw [BitemporalOverlay.step]
      cases added : s.tombstone id commit sha reason successor validFrom with
      | error x => exact h
      | ok r =>
        obtain ⟨f, s'⟩ := r
        obtain ⟨args, added, -⟩ := tombstone_eq_ok added
        obtain ⟨state, world, -, rfl, -, -⟩ := pushed_of_append wf added fun same => by cases same
        exact h.pushed wf (short id List.mem_cons_self)
    | rename old new commit sha digest => cases rename
    | invalidateDependencies changed commit sha reason validFrom =>
      exact linked_hold _ validFrom h wf (nodup_held wf changed) fun f mem => short _ (List.mem_map_of_mem mem)

theorem observedSequence_append {allowSameWorld : Bool} {f : BitemporalFact}
    (h : s.append id args allowSameWorld = .ok (f, s')) : s'.observedSequence = s.observedSequence + 1 := by
  obtain ⟨state, world, -, e⟩ := append_eq_ok h
  rw [← (Prod.mk.inj e).2]

theorem observedSequence_rename {old new commit sha digest : PyStr} {r : BitemporalFact}
    (h : s.rename old new commit sha digest = (.ok r, s')) : s'.observedSequence = s.observedSequence + 2 := by
  unfold rename at h
  split at h
  · cases h
  · split at h
    · cases h
    · split at h
      · cases h
      · next replacement t appended =>
        split at h
        · cases h
        · next g t' dead =>
          cases h
          obtain ⟨args, dead, -⟩ := tombstone_eq_ok dead
          rw [observedSequence_append dead, observedSequence_append appended]
          omega

/-- In a run in which every call that changes the overlay is no rename and adds first and second versions only, the
links of every state name versions that exist. -/
theorem linksExist_of_along_fresh {repository baseGeneration : PyStr} {overlayGeneration : Option PyStr}
    (h : new repository baseGeneration overlayGeneration = .ok s) {calls : List Call}
    (fresh : Machine.Along step Fresh s calls) (before after : List Call) (e : calls = before ++ after) :
    s.LinksExist before := by
  subst e
  have fresh := (Machine.along_append.1 fresh).1
  have keeps (t : BitemporalOverlay) (call : Call) (inv : t.WellFormed ∧ t.Linked) (now : t.Fresh call) :
      (t.step call).WellFormed ∧ (t.step call).Linked :=
    ⟨(Keeps.step inv.1 le_rfl call).wellFormed, inv.2.step inv.1 now⟩
  have start : s.WellFormed ∧ s.Linked := by
    refine ⟨new_wellFormed h, ?_⟩
    unfold new at h
    split_ifs at h
    cases h
    exact fun _ _ found => by cases found
  refine ⟨(fresh.run_invariant start keeps).2, ?_⟩
  rintro front back old new commit sha digest rfl r s' returned
  exfalso
  -- a rename that returns changes the overlay
  obtain ⟨before, now, -⟩ := Machine.along_append.1 fresh
  have wf := (before.run_invariant start keeps).1
  generalize Machine.run step s front = t at returned now wf
  rcases now with same | ⟨rename, -⟩
  · have moved := observedSequence_rename returned
    have same : (t.rename old new commit sha digest).2 = t := same
    rw [returned] at same
    dsimp only at same
    rw [same] at moved
    omega
  · cases rename

/-- The link to a second version names it as it stands. -/
theorem linksExist_tombstone : LinksExist ⟨"repo", "base", none, .empty, 0, 0⟩
    [.append sampleId (sampleArgs "active"), sampleTombstone] := by
  refine linksExist_of_along_fresh (show new "repo" "base" none = .ok _ from rfl) ?_ _ [] (List.append_nil _).symm
  refine ⟨.inr ⟨rfl, List.forall_mem_singleton.2 (Nat.zero_le _)⟩, .inr ⟨rfl, List.forall_mem_singleton.2 ?_⟩, trivial⟩
  decide +kernel

/-- A version of the sample fact, and the one that closes it. -/
def versionAfter (n : ℤ) (predecessor : Option PyStr) : BitemporalFact :=
  newFact ⟨"repo", "base", none, .empty, n, n⟩ sampleId (sampleArgs "active") .active (n + 1) predecessor

/-- The second version, while it is the last one. -/
def secondVersion : BitemporalFact := versionAfter 1 (some (close (versionAfter 0 none) .active 2 2).digest)

theorem digest_close_ne : secondVersion.digest ≠ (close secondVersion .active 3 3).digest := by
  intro same
  have same := PyStr.ofChars_injective same
  revert same
  simp (disch := decide +kernel) only [secondVersion, versionAfter, newFact, close, BitemporalFact.digest,
    BitemporalFact.unsignedRecord, Sha256.hexdigest_eq, Literals.toList_eq_asciiChars]
  decide +kernel

/-- The link to the second of three versions names it as it was before the third one closed it. -/
theorem not_linksExist_three : ¬ LinksExist ⟨"repo", "base", none, .empty, 0, 0⟩
    [.append sampleId (sampleArgs "active"), .append sampleId (sampleArgs "active"),
      .append sampleId (sampleArgs "active")] := by
  intro exist
  have chain := exist.1 sampleId _ rfl
  have first : ∀ f g, ∀ rest : List BitemporalFact, (f :: g :: rest).IsChain (fun f g => f.successor = some g.digest) →
      f.successor = some g.digest := fun f g rest chain => (List.isChain_cons_cons.1 chain).1
  have named : some secondVersion.digest = some (close secondVersion .active 3 3).digest := first _ _ _ chain
  exact digest_close_ne (Option.some.inj named)

end BitemporalOverlay

end SimplicioFast
