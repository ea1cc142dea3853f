import SimplicioFast.Temporal.Overlay

/-!
# The history of an overlay

A version is what a fact says besides the fields that a later operation fills in or rewrites when it
closes the version (`BitemporalFact.version`).  `as_of` keeps returning the same versions for a past
world sequence in exactly the runs in which no operation activates a fact whose open version is a
tombstone (`stable_asOf_iff`): such an operation rewrites the state of the tombstone to superseded,
and `as_of` then shows it.
-/

namespace SimplicioFast

namespace BitemporalFact

/-- The version without the fields that closing it changes. -/
def version (f : BitemporalFact) : BitemporalFact :=
  { f with validTo := none, invalidatedAt := none, state := .active, reasonCode := none
           successor := none }

end BitemporalFact

namespace BitemporalOverlay

variable {s s' : BitemporalOverlay} {id : PyStr} {args : FactArgs} {state : FactState}
  {world w : ℤ} {generation : Option PyStr} {includeTombstones : Bool}

/-! ## What the overlay holds -/

/-- The versions of a fact: closed ones, and an open one at the end, all begun by `world`. -/
structure Versions (world : ℤ) (id : PyStr) (closed : List BitemporalFact) (last : BitemporalFact) :
    Prop where
  isOpen : last.validTo = none
  isClosed : ∀ f ∈ closed, ∃ t ≤ world, f.validTo = some t
  canonicalId : ∀ f ∈ closed ++ [last], f.canonicalId = id
  begun : ∀ f ∈ closed ++ [last], 1 ≤ f.validFrom ∧ f.validFrom ≤ world

/-- The invariant of every overlay that the operations build. -/
def WellFormed (s : BitemporalOverlay) : Prop :=
  0 ≤ s.worldSequence ∧ ∀ id versions, s.facts.get? id = some versions →
    ∃ closed last, versions = closed ++ [last] ∧ Versions s.worldSequence id closed last

theorem current_of_get? {closed : List BitemporalFact} {last : BitemporalFact}
    (found : s.facts.get? id = some (closed ++ [last])) (isOpen : last.validTo = none) :
    s.current id = some last := by
  rw [current, found, Option.bind_some, List.getLast?_concat]
  exact if_pos isOpen

theorem current_of_get?_none (found : s.facts.get? id = none) : s.current id = none := by
  rw [current, found, Option.bind_none]

theorem exists_of_current (wf : s.WellFormed) {f : BitemporalFact} (h : s.current id = some f) :
    ∃ closed, s.facts.get? id = some (closed ++ [f]) ∧ Versions s.worldSequence id closed f := by
  cases found : s.facts.get? id with
  | none =>
    rw [current_of_get?_none found] at h
    cases h
  | some versions =>
    obtain ⟨closed, last, rfl, versions⟩ := wf.2 id _ found
    rw [current_of_get? found versions.isOpen] at h
    cases h
    exact ⟨closed, rfl, versions⟩

theorem Versions.mono {closed : List BitemporalFact} {last : BitemporalFact}
    (h : Versions w id closed last) (le : w ≤ world) : Versions world id closed last where
  isOpen := h.isOpen
  isClosed := fun f mem => by
    obtain ⟨t, ht, e⟩ := h.isClosed f mem
    exact ⟨t, ht.trans le, e⟩
  canonicalId := h.canonicalId
  begun := fun f mem => ⟨(h.begun f mem).1, (h.begun f mem).2.trans le⟩

/-! ## What `push` does -/

theorem push_of_new (found : s.facts.get? id = none) (args : FactArgs) (state : FactState)
    (world : ℤ) :
    s.push id args state world = (s.newFact id args state world args.predecessor,
      { s with
        worldSequence := world
        observedSequence := s.observedSequence + 1
        facts := s.facts.set id [s.newFact id args state world args.predecessor] }) := by
  simp only [push, current_of_get?_none found, found, Option.getD_none, List.nil_append]

theorem push_of_open {closed : List BitemporalFact} {last : BitemporalFact}
    (found : s.facts.get? id = some (closed ++ [last])) (isOpen : last.validTo = none)
    (args : FactArgs) (state : FactState) (world : ℤ) :
    ∃ fact, fact = s.newFact id args state world
        (some (close last state world (s.observedSequence + 1)).digest) ∧
      s.push id args state world = (fact,
        { s with
          worldSequence := world
          observedSequence := s.observedSequence + 1
          facts := s.facts.set id
            (closed ++ [link (close last state world (s.observedSequence + 1)) fact] ++ [fact]) }) := by
  refine ⟨_, rfl, ?_⟩
  simp only [push, current_of_get? found isOpen, found, Option.getD_some, List.dropLast_concat]

/-- `push` keeps the overlay well formed when the world does not run backwards. -/
theorem WellFormed.push (wf : s.WellFormed) (le : s.worldSequence ≤ world) (one : 1 ≤ world)
    (args : FactArgs) (state : FactState) (id : PyStr) :
    (s.push id args state world).2.WellFormed := by
  have others : ∀ k v id' versions, (s.facts.set k v).get? id' = some versions → id' ≠ k →
      ∃ closed last, versions = closed ++ [last] ∧ Versions world id' closed last := by
    intro k v id' versions found other
    rw [Dict.get?_set_of_ne _ _ other] at found
    obtain ⟨closed, last, e, versions⟩ := wf.2 id' _ found
    exact ⟨closed, last, e, versions.mono le⟩
  cases found : s.facts.get? id with
  | none =>
    rw [push_of_new found]
    refine ⟨by simp only; omega, fun id' versions found' => ?_⟩
    by_cases h : id' = id
    · subst h
      rw [Dict.get?_set_self] at found'
      cases found'
      have only {f : BitemporalFact} (mem : f ∈ [] ++ [s.newFact id' args state world
          args.predecessor]) : f = s.newFact id' args state world args.predecessor :=
        List.mem_singleton.1 mem
      refine ⟨[], _, rfl, ⟨rfl, fun f mem => (by cases mem), fun f mem => ?_, fun f mem => ?_⟩⟩
      · rw [only mem]
        rfl
      · rw [only mem]
        exact ⟨one, le_rfl⟩
    · exact others _ _ id' versions found' h
  | some versions =>
    obtain ⟨closed, last, rfl, versions⟩ := wf.2 id _ found
    obtain ⟨fact, hfact, e⟩ := push_of_open found versions.isOpen args state world
    rw [e]
    refine ⟨by simp only; omega, fun id' versions' found' => ?_⟩
    by_cases h : id' = id
    · subst h
      rw [Dict.get?_set_self] at found'
      cases found'
      have old := versions.mono le
      refine ⟨_, _, rfl, ⟨by rw [hfact]; rfl, fun f mem => ?_, fun f mem => ?_, fun f mem => ?_⟩⟩
      · rcases List.mem_append.1 mem with mem | mem
        · exact old.isClosed f mem
        · rw [List.mem_singleton.1 mem]
          exact ⟨world, le_rfl, rfl⟩
      all_goals
        rcases List.mem_append.1 mem with mem | mem
        · rcases List.mem_append.1 mem with mem | mem
          · first
              | exact old.canonicalId f (List.mem_append_left _ mem)
              | exact old.begun f (List.mem_append_left _ mem)
          · rw [List.mem_singleton.1 mem]
            first
              | exact old.canonicalId last (List.mem_append_right _ List.mem_cons_self)
              | exact old.begun last (List.mem_append_right _ List.mem_cons_self)
        · rw [List.mem_singleton.1 mem]
          rw [hfact]
          first
            | rfl
            | exact ⟨one, le_rfl⟩
    · exact others _ _ id' versions' found' h

/-! ## What `as_of` sees -/

/-- The versions that `as_of` returns. -/
def history (s : BitemporalOverlay) (w : ℤ) (generation : Option PyStr) (includeTombstones : Bool) :
    Except TemporalRaised (List BitemporalFact) :=
  (s.asOf w generation includeTombstones).map (List.map BitemporalFact.version)

/-- The version of one fact that `as_of` returns. -/
def candidateVersion (w : ℤ) (includeTombstones : Bool) (versions : List BitemporalFact) :
    Option BitemporalFact :=
  (candidate w includeTombstones versions).map BitemporalFact.version

theorem map_version_sorted (l : List (List BitemporalFact)) :
    ((l.filterMap (candidate w includeTombstones)).insertionSort
        fun f g => f.canonicalId ≤ g.canonicalId).map BitemporalFact.version =
      (l.filterMap (candidateVersion w includeTombstones)).insertionSort
        fun f g => f.canonicalId ≤ g.canonicalId := by
  rw [List.map_insertionSort (fun f g : BitemporalFact => f.canonicalId ≤ g.canonicalId)
    (fun f g : BitemporalFact => f.canonicalId ≤ g.canonicalId) BitemporalFact.version _ fun _ _ _ _ => Iff.rfl, List.map_filterMap]
  rfl

/-- An assignment that does not change the version of its fact at `w` does not change the history
at `w`. -/
theorem history_set {versions : List BitemporalFact} (base : s'.baseGeneration = s.baseGeneration)
    (overlay : s'.overlayGeneration = s.overlayGeneration)
    (facts : s'.facts = s.facts.set id versions)
    (same : candidateVersion w includeTombstones versions =
      (s.facts.get? id).bind (candidateVersion w includeTombstones)) :
    s'.history w generation includeTombstones = s.history w generation includeTombstones := by
  simp only [history, asOf, base, overlay]
  split_ifs
  · rfl
  · rfl
  · simp only [Except.map, map_version_sorted, facts, Dict.filterMap_values_set _ _ _ _ same]

theorem isValidAt_later {f : BitemporalFact} (h : w < f.validFrom) :
    isValidAt w includeTombstones f = false := by
  simp [isValidAt, not_le.2 h]

theorem isValidAt_closed {f : BitemporalFact} {t : ℤ} (h : f.validTo = some t) (le : t ≤ w) :
    isValidAt w includeTombstones f = false := by
  simp [isValidAt, h, le]

/-- Closing a version after `w` changes at `w` only whether a tombstone hides it. -/
theorem isValidAt_close {last : BitemporalFact} (isOpen : last.validTo = none) (later : w < world)
    (observed : ℤ) (fact : BitemporalFact) :
    isValidAt w includeTombstones (link (close last state world observed) fact) =
      (isValidAt w includeTombstones last ||
        (decide (last.validFrom ≤ w) && decide (state = .active ∧ last.state = .tombstoned))) := by
  by_cases active : state = .active
  · by_cases dead : last.state = .tombstoned
    · simp [isValidAt, link, close, active, dead, later, isOpen]
      cases includeTombstones <;> simp
    · simp [isValidAt, link, close, active, dead, later, isOpen]
  · simp [isValidAt, link, close, active, later, isOpen]

theorem candidate_concat (versions : List BitemporalFact) (f : BitemporalFact) :
    candidate w includeTombstones (versions ++ [f]) =
      if isValidAt w includeTombstones f then some f
      else candidate w includeTombstones versions := by
  unfold candidate
  rw [List.filter_append]
  split_ifs with h
  · rw [List.filter_cons_of_pos h, List.filter_nil, List.getLast?_concat]
  · rw [List.filter_cons_of_neg h, List.filter_nil, List.append_nil]

/-- Whether a new version in the given state would rewrite a tombstone. -/
def Revives (s : BitemporalOverlay) (id : PyStr) (state : FactState) : Prop :=
  state = .active ∧ ∃ f, s.current id = some f ∧ f.state = .tombstoned

/-- `push` keeps the history before its own world, unless it revives a tombstone. -/
theorem history_push (wf : s.WellFormed) (later : w < world) (kept : ¬ s.Revives id state)
    (args : FactArgs) :
    (s.push id args state world).2.history w generation includeTombstones =
      s.history w generation includeTombstones := by
  cases found : s.facts.get? id with
  | none =>
    rw [push_of_new found]
    refine history_set rfl rfl rfl ?_
    rw [found, Option.bind_none, candidateVersion, candidate, List.filter_cons_of_neg]
    · rfl
    · rw [isValidAt_later (by exact later)]
      exact Bool.false_ne_true
  | some versions =>
    obtain ⟨closed, last, rfl, versions⟩ := wf.2 id _ found
    obtain ⟨fact, hfact, e⟩ := push_of_open found versions.isOpen args state world
    rw [e]
    refine history_set rfl rfl rfl ?_
    have alive : ¬ (state = .active ∧ last.state = .tombstoned) := fun h =>
      kept ⟨h.1, last, current_of_get? found versions.isOpen, h.2⟩
    have same : isValidAt w includeTombstones
        (link (close last state world (s.observedSequence + 1)) fact) =
          isValidAt w includeTombstones last := by
      rw [isValidAt_close versions.isOpen later, decide_eq_false alive, Bool.and_false,
        Bool.or_false]
    rw [found, Option.bind_some, candidateVersion, candidateVersion, candidate_concat, if_neg,
      candidate_concat, candidate_concat, same]
    · split_ifs <;> rfl
    · rw [isValidAt_later (by rw [hfact]; exact later)]
      exact Bool.false_ne_true

/-- The facts that `as_of` returns, one by one. -/
theorem exists_mem_history_iff (wf : s.WellFormed) (w : ℤ) (includeTombstones : Bool) (id : PyStr) :
    (∃ f ∈ s.facts.values.filterMap (candidateVersion w includeTombstones), f.canonicalId = id) ↔
      ∃ versions f, s.facts.get? id = some versions ∧
        candidate w includeTombstones versions = some f := by
  have named : ∀ id' versions f, s.facts.get? id' = some versions →
      candidate w includeTombstones versions = some f → f.canonicalId = id' := by
    intro id' versions f found hf
    obtain ⟨closed, last, rfl, versions⟩ := wf.2 id' _ found
    exact versions.canonicalId f (List.mem_of_mem_filter (List.mem_of_getLast? hf))
  constructor
  · rintro ⟨f, mem, rfl⟩
    obtain ⟨versions, hv, hf⟩ := List.mem_filterMap.1 mem
    obtain ⟨f', hf', rfl⟩ := Option.map_eq_some_iff.1 hf
    obtain ⟨k, found⟩ := (Dict.mem_values_iff _ _).1 hv
    have := named k versions f' found hf'
    subst this
    exact ⟨versions, f', found, hf'⟩
  · rintro ⟨versions, f, found, hf⟩
    exact ⟨f.version, List.mem_filterMap.2 ⟨versions, (Dict.mem_values_iff _ _).2 ⟨id, found⟩,
      Option.map_eq_some_iff.2 ⟨f, hf, rfl⟩⟩, named id versions f found hf⟩

theorem history_push_revives (wf : s.WellFormed) (later : s.worldSequence < world)
    (revives : s.Revives id state) (args : FactArgs) :
    (s.push id args state world).2.history s.worldSequence none false ≠
      s.history s.worldSequence none false := by
  obtain ⟨active, f, hf, dead⟩ := revives
  obtain ⟨closed, found, versions⟩ := exists_of_current wf hf
  obtain ⟨fact, hfact, e⟩ := push_of_open found versions.isOpen args state world
  have begun := versions.begun f (List.mem_append_right _ List.mem_cons_self)
  have wf' := wf.push later.le (by omega) args state id
  have one : ¬ s.worldSequence < 1 := by omega
  intro same
  simp only [history, asOf, if_neg one, ne_eq, not_true_eq_false, false_and, if_false, Except.map,
    map_version_sorted, Except.ok.injEq] at same
  have ids (l : List BitemporalFact) : (∃ g ∈ l.insertionSort fun f g => f.canonicalId ≤ g.canonicalId,
      g.canonicalId = id) ↔ ∃ g ∈ l, g.canonicalId = id := by
    simp only [List.mem_insertionSort]
  have shown := (ids _).2 ((exists_mem_history_iff wf' s.worldSequence false id).2 ?_)
  · rw [same, ids, exists_mem_history_iff wf] at shown
    obtain ⟨versions', g, found', hg⟩ := shown
    rw [found] at found'
    cases found'
    have mem := List.mem_of_getLast? hg
    obtain ⟨mem, valid⟩ := List.mem_filter.1 mem
    rcases List.mem_append.1 mem with mem | mem
    · obtain ⟨t, ht, e⟩ := versions.isClosed g mem
      rw [isValidAt_closed e ht] at valid
      cases valid
    · rw [List.mem_singleton.1 mem, isValidAt, dead] at valid
      simp at valid
  · rw [e]
    refine ⟨_, link (close f state world (s.observedSequence + 1)) fact,
      Dict.get?_set_self _ _ _, ?_⟩
    rw [candidate_concat, if_neg, candidate_concat, if_pos]
    · rw [isValidAt_close versions.isOpen later]
      simp [begun.2, active, dead]
    · rw [isValidAt_later (by rw [hfact]; exact later)]
      exact Bool.false_ne_true

/-! ## What an operation does to the history -/

theorem checkAppend_eq_ok {allowSameWorld : Bool}
    (h : s.checkAppend id args allowSameWorld = .ok (state, world)) :
    knownState args.state = .ok state ∧ s.worldSequence ≤ world ∧
      (allowSameWorld = false → s.worldSequence < world) := by
  obtain ⟨-, -, h⟩ := bind_ok.1 h
  obtain ⟨-, -, h⟩ := bind_ok.1 h
  obtain ⟨-, -, h⟩ := bind_ok.1 h
  obtain ⟨-, -, h⟩ := bind_ok.1 h
  obtain ⟨state', hstate, h⟩ := bind_ok.1 h
  obtain ⟨world', hworld, h⟩ := bind_ok.1 h
  cases h
  simp only [nextWorld] at hworld
  split_ifs at hworld with early
  cases hworld
  rw [not_or, not_lt, not_and] at early
  refine ⟨hstate, early.1, fun strict => lt_of_le_of_ne early.1 fun e => ?_⟩
  exact early.2 e.symm strict

theorem append_eq_ok {allowSameWorld : Bool} {f : BitemporalFact}
    (h : s.append id args allowSameWorld = .ok (f, s')) :
    ∃ state world, s.checkAppend id args allowSameWorld = .ok (state, world) ∧
      s.push id args state world = (f, s') := by
  obtain ⟨⟨state, world⟩, checked, h⟩ := bind_ok.1 h
  cases h
  exact ⟨state, world, checked, rfl⟩

/-- What an operation keeps: the overlay stays well formed, the world does not run backwards, and,
where `kept` holds, the history at `w` stays the same. -/
structure Keeps (kept : Prop) (w : ℤ) (s s' : BitemporalOverlay) : Prop where
  wellFormed : s'.WellFormed
  world : s.worldSequence ≤ s'.worldSequence
  history : kept → ∀ generation includeTombstones,
    s'.history w generation includeTombstones = s.history w generation includeTombstones

theorem Keeps.refl {kept : Prop} (wf : s.WellFormed) : Keeps kept w s s :=
  ⟨wf, le_rfl, fun _ _ _ => rfl⟩

theorem Keeps.trans {kept : Prop} {s'' : BitemporalOverlay} (h : Keeps kept w s s')
    (h' : Keeps kept w s' s'') : Keeps kept w s s'' :=
  ⟨h'.wellFormed, h.world.trans h'.world, fun k generation includeTombstones =>
    (h'.history k generation includeTombstones).trans (h.history k generation includeTombstones)⟩

theorem Keeps.imp {kept kept' : Prop} (h : Keeps kept w s s') (imp : kept' → kept) :
    Keeps kept' w s s' :=
  ⟨h.wellFormed, h.world, fun k => h.history (imp k)⟩

/-- `append` keeps the history before the world of the new version. -/
theorem Keeps.append (wf : s.WellFormed) {allowSameWorld : Bool} {f : BitemporalFact}
    (h : s.append id args allowSameWorld = .ok (f, s'))
    (past : w < s.worldSequence ∨ (allowSameWorld = false ∧ w ≤ s.worldSequence))
    (one : allowSameWorld = false ∨ 1 ≤ s.worldSequence) :
    Keeps (∀ state, knownState args.state = .ok state → ¬ s.Revives id state) w s s' := by
  obtain ⟨state, world, checked, e⟩ := append_eq_ok h
  obtain ⟨hstate, le, lt⟩ := checkAppend_eq_ok checked
  have zero := wf.1
  have later : w < world ∧ 1 ≤ world := by
    constructor
    · rcases past with past | ⟨strict, past⟩
      · exact past.trans_le le
      · exact past.trans_lt (lt strict)
    · rcases one with strict | one
      · have := lt strict
        omega
      · exact one.trans le
  have e' : s' = (s.push id args state world).2 := by rw [e]
  subst e'
  have world' : (s.push id args state world).2.worldSequence = world := by
    simp only [push]
  exact ⟨wf.push le later.2 args state id, by rw [world']; exact le, fun kept _ _ =>
    history_push wf later.1 (kept state hstate) args⟩

theorem Keeps.tombstone (wf : s.WellFormed) {allowSameWorld : Bool} {f : BitemporalFact}
    {commit sha reason : PyStr} {successor : Option PyStr} {validFrom : Option ℤ}
    (h : s.tombstone id commit sha reason successor validFrom allowSameWorld = .ok (f, s'))
    (past : w < s.worldSequence ∨ (allowSameWorld = false ∧ w ≤ s.worldSequence))
    (one : allowSameWorld = false ∨ 1 ≤ s.worldSequence) : Keeps True w s s' := by
  unfold BitemporalOverlay.tombstone at h
  split at h
  · cases h
  · split_ifs at h
    refine (Keeps.append wf h past one).imp fun _ state hstate revives => ?_
    cases hstate
    cases revives.1

theorem Keeps.hold {commit sha reason : PyStr} (fs : List BitemporalFact) (validFrom : Option ℤ)
    (wf : s.WellFormed) (past : w ≤ s.worldSequence) :
    Keeps True w s (BitemporalOverlay.hold commit sha reason s validFrom fs).2 := by
  induction fs generalizing s validFrom with
  | nil => exact .refl wf
  | cons f fs ih =>
    rw [BitemporalOverlay.hold]
    split
    · exact .refl wf
    · next g s' h =>
      have first : Keeps True w s s' :=
        (Keeps.append wf h (.inr ⟨rfl, past⟩) (.inl rfl)).imp fun _ state hstate revives => by
          cases hstate
          cases revives.1
      exact first.trans (ih none first.wellFormed (past.trans first.world))

/-- The operations that activate a fact whose open version is a tombstone: an `append` in state
active, or a `rename` onto the id, that passes the checks of `append`. -/
def Reactivates (s : BitemporalOverlay) : Call → Prop
  | .append id args => (∃ world, s.checkAppend id args false = .ok (.active, world)) ∧
      ∃ f, s.current id = some f ∧ f.state = .tombstoned
  | .rename old new sourceCommit sourceSha256 artifactDigest =>
    (∃ f, s.current old = some f ∧ f.state = .active) ∧
      (∃ world, s.checkAppend new { sourceCommit, sourceSha256, artifactDigest } false =
        .ok (.active, world)) ∧
      ∃ f, s.current new = some f ∧ f.state = .tombstoned
  | .tombstone .. => False
  | .invalidateDependencies .. => False

theorem Keeps.step (wf : s.WellFormed) (past : w ≤ s.worldSequence) (call : Call) :
    Keeps (¬ s.Reactivates call) w s (s.step call) := by
  cases call with
  | append id args =>
    rw [BitemporalOverlay.step]
    cases h : s.append id args with
    | error x => exact .refl wf
    | ok r =>
      obtain ⟨f, s'⟩ := r
      refine (Keeps.append wf h (.inr ⟨rfl, past⟩) (.inl rfl)).imp fun kept state hstate revives => ?_
      obtain ⟨state', world, checked, -⟩ := append_eq_ok h
      obtain ⟨active, dead⟩ := revives
      rw [(checkAppend_eq_ok checked).1] at hstate
      cases hstate
      exact kept ⟨⟨world, active ▸ checked⟩, dead⟩
  | tombstone id commit sha reason successor validFrom =>
    rw [BitemporalOverlay.step]
    cases h : s.tombstone id commit sha reason successor validFrom with
    | error x => exact .refl wf
    | ok r => exact (Keeps.tombstone wf h (.inr ⟨rfl, past⟩) (.inl rfl)).imp fun _ => trivial
  | rename old new commit sha digest =>
    rw [BitemporalOverlay.step, BitemporalOverlay.rename]
    split
    · exact .refl wf
    · next current hcurrent =>
      split_ifs with inactive
      · exact .refl wf
      · rw [ne_eq, not_not] at inactive
        split
        · exact .refl wf
        · next replacement s' h =>
          obtain ⟨state, world, checked, e⟩ := append_eq_ok h
          obtain ⟨hstate, -, lt⟩ := checkAppend_eq_ok checked
          cases hstate
          have world' : s'.worldSequence = world := by
            rw [← (Prod.mk.inj e).2]
          have zero := wf.1
          have later := lt rfl
          have first : Keeps (¬ s.Reactivates (.rename old new commit sha digest)) w s s' := by
            refine (Keeps.append wf h (.inr ⟨rfl, past⟩) (.inl rfl)).imp
              fun kept state hstate revives => ?_
            obtain ⟨rfl, dead⟩ := revives
            exact kept ⟨⟨current, hcurrent, inactive⟩, ⟨world, checked⟩, dead⟩
          split
          · exact first
          · next s'' h' =>
            exact first.trans ((Keeps.tombstone first.wellFormed h' (.inl (by omega))
              (.inr (by omega))).imp fun _ => trivial)
  | invalidateDependencies changed commit sha reason validFrom =>
    exact (Keeps.hold _ validFrom wf past).imp fun _ => trivial

theorem history_step_of_reactivates (wf : s.WellFormed) {call : Call}
    (reactivates : s.Reactivates call) :
    (s.step call).history s.worldSequence none false ≠ s.history s.worldSequence none false := by
  cases call with
  | append id args =>
    obtain ⟨⟨world, checked⟩, dead⟩ := reactivates
    have h : s.append id args = .ok (s.push id args .active world) := by
      rw [append, checked]
      rfl
    rw [step, h]
    exact history_push_revives wf ((checkAppend_eq_ok checked).2.2 rfl) ⟨rfl, dead⟩ args
  | tombstone => exact reactivates.elim
  | invalidateDependencies => exact reactivates.elim
  | rename old new commit sha digest =>
    obtain ⟨⟨current, hcurrent, active⟩, ⟨world, checked⟩, dead⟩ := reactivates
    obtain ⟨-, -, lt⟩ := checkAppend_eq_ok checked
    have zero := wf.1
    have later := lt rfl
    have h : s.append new { sourceCommit := commit, sourceSha256 := sha, artifactDigest := digest
                            predecessor := some current.digest } =
        .ok (s.push new { sourceCommit := commit, sourceSha256 := sha, artifactDigest := digest
                          predecessor := some current.digest } .active world) := by
      have checked' : s.checkAppend new { sourceCommit := commit, sourceSha256 := sha
                                          artifactDigest := digest
                                          predecessor := some current.digest } false =
        .ok (.active, world) := checked
      rw [append, checked']
      rfl
    have changed := history_push_revives wf later ⟨rfl, dead⟩
      { sourceCommit := commit, sourceSha256 := sha, artifactDigest := digest
        predecessor := some current.digest }
    have wf' := wf.push later.le (by omega) { sourceCommit := commit, sourceSha256 := sha
                                              artifactDigest := digest
                                              predecessor := some current.digest } .active new
    rw [step, rename, hcurrent]
    simp only [active, ne_eq, not_true_eq_false, if_false, h]
    split
    · exact changed
    · next s'' h' =>
      have kept := Keeps.tombstone (w := s.worldSequence) wf' h' (.inl ?_) (.inr ?_)
      · rw [kept.history trivial]
        exact changed
      all_goals
        simp only [push]
        omega

/-! ## Runs -/

theorem new_wellFormed {repository baseGeneration : PyStr} {overlayGeneration : Option PyStr}
    (h : new repository baseGeneration overlayGeneration = .ok s) : s.WellFormed := by
  unfold new at h
  split_ifs at h
  cases h
  refine ⟨le_rfl, fun id versions found => ?_⟩
  cases found

/-- In a run from a new overlay, `as_of` keeps returning the same versions for every past world
sequence exactly when no operation of the run activates a fact whose open version is a tombstone. -/
theorem stable_asOf_iff {repository baseGeneration : PyStr} {overlayGeneration : Option PyStr}
    (h : new repository baseGeneration overlayGeneration = .ok s) (calls : List Call) :
    Machine.Stable step
        (fun s (q : ℤ × Option PyStr × Bool) => q.1 ≤ s.worldSequence)
        (fun s q => s.history q.1 q.2.1 q.2.2) s calls ↔
      Machine.Along step (fun s call => ¬ s.Reactivates call) s calls := by
  have preserved : ∀ s call, WellFormed s → (s.step call).WellFormed :=
    fun s call wf => (Keeps.step wf le_rfl call).wellFormed
  rw [Machine.stable_iff (I := WellFormed) (new_wellFormed h) preserved]
  · refine Machine.along_congr_of_invariant (new_wellFormed h) preserved fun s call wf => ?_
    constructor
    · intro same reactivates
      exact history_step_of_reactivates wf reactivates (same (s.worldSequence, none, false) le_rfl)
    · rintro kept ⟨w, generation, includeTombstones⟩ past
      exact (Keeps.step wf past call).history kept generation includeTombstones
  · exact fun s call q wf past => past.trans (Keeps.step wf le_rfl call).world

def sampleArgs (state : PyStr) : FactArgs where
  sourceCommit := "c1"
  sourceSha256 := PyStr.ofChars (List.replicate 64 'b')
  artifactDigest := PyStr.ofChars (List.replicate 64 'd')
  state := state

def sampleId : PyStr := PyStr.ofChars (List.replicate 64 'a')

def sampleTombstone : Call :=
  .tombstone sampleId "c2" (PyStr.ofChars (List.replicate 64 'e')) "deleted" none none

/-- A tombstoned fact that is appended again in state held stays absent from the past. -/
theorem stable_asOf_held :
    Machine.Stable step (fun s (q : ℤ × Option PyStr × Bool) => q.1 ≤ s.worldSequence)
      (fun s q => s.history q.1 q.2.1 q.2.2) ⟨"repo", "base", none, .empty, 0, 0⟩
      [.append sampleId (sampleArgs "active"), sampleTombstone,
        .append sampleId (sampleArgs "held")] := by
  refine (stable_asOf_iff (show new "repo" "base" none = .ok _ from rfl) _).2 ⟨?_, ?_, ?_, trivial⟩
  · rintro ⟨-, f, found, -⟩
    cases found
  · exact id
  · rintro ⟨⟨world, checked⟩, -⟩
    exact absurd (checkAppend_eq_ok checked).1 (by decide)

/-- A tombstoned fact that is appended again in state active appears in the past. -/
theorem not_stable_asOf_active :
    ¬ Machine.Stable step (fun s (q : ℤ × Option PyStr × Bool) => q.1 ≤ s.worldSequence)
      (fun s q => s.history q.1 q.2.1 q.2.2) ⟨"repo", "base", none, .empty, 0, 0⟩
      [.append sampleId (sampleArgs "active"), sampleTombstone,
        .append sampleId (sampleArgs "active")] := by
  intro stable
  have same := stable [.append sampleId (sampleArgs "active"), sampleTombstone]
    [.append sampleId (sampleArgs "active")] [] rfl (2, none, false) (by decide)
  have lengths := congrArg (fun r => r.toOption.map List.length) same
  revert lengths
  decide +kernel

end BitemporalOverlay

end SimplicioFast
