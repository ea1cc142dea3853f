import SimplicioFast.Prism.Overlay

/-!
# Runs of an arena

`Folds` says that the registered overlays read as the base with their deltas folded over it.  Every call but
a delta keeps it (`Frame`), and a delta keeps it exactly when it clobbers no path and stores no content
under the digest of another one (`Loses`).
-/

namespace SimplicioFast

/-- An arena in use: `applied` are the deltas that have been applied, each with the number of its overlay. -/
structure ArenaRun where
  arena : Arena
  applied : List (ℕ × PrismWorkDelta)

namespace ArenaRun

open Prism PrismWorkDelta

/-- A call of the arena. -/
inductive Call
  | openSlot (now : ℤ) (r : SlotRequest)
  | renewSlot (now : ℤ) (view : SlotView) (ttl : ℤ)
  | releaseSlot (now : ℤ) (view : SlotView)
  | createOverlay (now : ℤ) (view : SlotView) (r : OverlayRequest)
  | closeOverlay (now : ℤ) (view : SlotView) (ref : ℕ)
  | cleanupAbandoned (now olderThan : ℤ) (apply : Bool)
  | close
  | applyDelta (now : ℤ) (view : SlotView) (ref : ℕ) (delta : PrismWorkDelta)

/-- The arena after a call that may raise before it changes anything. -/
def orElse {α : Type} (a : Arena) : Except ArenaRaised (α × Arena) → Arena
  | .ok r => r.2
  | .error _ => a

/-- The deltas that have been applied after a call of `apply_delta` has returned or raised. -/
def record (s : ArenaRun) (ref : ℕ) (delta : PrismWorkDelta) :
    Except ArenaRaised Unit → List (ℕ × PrismWorkDelta)
  | .ok () => s.applied ++ [(ref, delta)]
  | .error _ => s.applied

def step (s : ArenaRun) : Call → ArenaRun
  | .openSlot now r => { s with arena := (s.arena.openSlot now r).2 }
  | .renewSlot now view ttl => { s with arena := (s.arena.renewSlot now view ttl).2 }
  | .releaseSlot now view => { s with arena := (s.arena.releaseSlot now view).2 }
  | .createOverlay now view r => { s with arena := orElse s.arena (s.arena.createOverlay now view r) }
  | .closeOverlay now view ref => { s with arena := (s.arena.closeOverlay now view ref).2 }
  | .cleanupAbandoned now olderThan apply =>
    { s with arena := orElse s.arena (s.arena.cleanupAbandoned now olderThan apply) }
  | .close => { s with arena := s.arena.close }
  | .applyDelta now view ref delta =>
    let r := s.arena.applyDelta now view ref delta
    ⟨r.2, s.record ref delta r.1⟩

/-- A call of `apply_delta` succeeds. -/
def Succeeds (s : ArenaRun) : Call → Prop
  | .applyDelta now view ref delta => (s.arena.applyDelta now view ref delta).1 = .ok ()
  | _ => True

/-- The base with the deltas of an overlay folded over it. -/
def expected (files : Dict PyStr Bytes) (s : ArenaRun) (ref : ℕ) : PrismWorkDelta.Contents :=
  ((s.applied.filter fun a => a.1 = ref).map Prod.snd).foldl (fun old delta => delta.effect old)
    files.get?

/-- Reading any safe path gives the files of the base, and through an overlay the base with the deltas of
the overlay folded over it. -/
structure Lawful (files : Dict PyStr Bytes) (s : ArenaRun) : Prop where
  base : ∀ now view lease path, s.arena.validateSlot now view = .ok lease → safePath path = .ok path →
    s.arena.baseRead now view path = .ok (files.get? path)
  overlay : ∀ now view ref o path, s.arena.validateOverlay now view ref = .ok o →
    safePath path = .ok path → s.arena.read now view ref path = .ok (s.expected files ref path)

/-- The delta stores a content under the digest of another content of the overlay. -/
def Collides (files : Dict PyStr Bytes) (s : ArenaRun) (ref : ℕ) (delta : PrismWorkDelta) : Prop :=
  ∃ p c c', delta.change (s.expected files ref) p = some (some c) ∧ c ≠ c' ∧ digestOf c = digestOf c' ∧
    ((∃ o, s.arena.overlays[ref]? = some o ∧ (s.arena.objectsOf o).get? (digestOf c) = some c') ∨
      ∃ p', delta.change (s.expected files ref) p' = some (some c'))

/-- The call applies a delta that clobbers a path or collides. -/
def Loses (files : Dict PyStr Bytes) (s : ArenaRun) : Call → Prop
  | .applyDelta _ _ ref delta => (∃ p, delta.Clobbers p) ∨ s.Collides files ref delta
  | _ => False

variable {files : Dict PyStr Bytes} {s : ArenaRun}

/-! ## The invariant -/

/-- The registered overlays read as the base with their deltas folded over it. -/
structure Folds (files : Dict PyStr Bytes) (s : ArenaRun) : Prop where
  base : ∀ path, readBase s.arena.mapping s.arena.catalog path = .ok (files.get? path)
  registered : ∀ id ref, s.arena.registry.get? id = some ref →
    ∃ o, s.arena.overlays[ref]? = some o ∧ o.overlayId = id
  addressed : ∀ dir objects h data, s.arena.objects.get? dir = some objects →
    objects.get? h = some data → digestOf data = h
  bound : ∀ a ∈ s.applied, a.1 < s.arena.overlays.length
  reads : ∀ ref o, s.arena.Registered ref o → ∀ path,
    s.arena.contentOf o path = .ok (s.expected files ref path)

theorem registered_of_valid {a : Arena} {now : ℤ} {view : SlotView} {ref : ℕ} {o : TaskOverlay}
    (h : a.validateOverlay now view ref = .ok o) : a.Registered ref o := by
  obtain ⟨_, -, rest⟩ := bind_ok.1 h
  obtain ⟨o', found, rest'⟩ := bind_ok.1 rest
  obtain ⟨_, checked, same⟩ := bind_ok.1 rest'
  cases same
  constructor
  · unfold Arena.overlayAt at found
    split at found
    · next o'' known =>
      cases found
      exact known
    · cases found
  · unfold check at checked
    split_ifs at checked with all
    simp only [Bool.and_eq_true, decide_eq_true_eq] at all
    exact all.2

theorem Folds.lawful (h : Folds files s) : Lawful files s where
  base := by
    intro now view lease path valid safe
    rw [Arena.baseRead, valid, safe]
    exact h.base path
  overlay := by
    intro now view ref o path valid safe
    rw [Arena.read_of_valid valid safe]
    exact h.reads ref o (registered_of_valid valid) path

/-! ## The calls that change no content -/

/-- The registered overlays are registered before the call, with the same contents, or new and empty. -/
structure Frame (a b : Arena) : Prop where
  mapping : b.mapping = a.mapping
  catalog : b.catalog = a.catalog
  length : a.overlays.length ≤ b.overlays.length
  registered : ∀ id ref, b.registry.get? id = some ref →
    (∃ o, b.overlays[ref]? = some o ∧ o.overlayId = id) ∨ a.registry.get? id = some ref
  kept : ∀ (ref : ℕ) (o : TaskOverlay), a.overlays[ref]? = some o → ∃ o' : TaskOverlay, b.overlays[ref]? = some o' ∧
    o'.records = o.records ∧ o'.path = o.path
  old : ∀ (ref : ℕ) (o' : TaskOverlay), b.Registered ref o' → a.overlays.length ≤ ref ∧ o'.records = .empty ∨
    ∃ o, a.Registered ref o ∧ o'.records = o.records ∧ b.objectsOf o' = a.objectsOf o
  objects : ∀ dir objects, b.objects.get? dir = some objects → a.objects.get? dir = some objects

theorem expected_of_fresh {ref : ℕ} (h : ∀ a ∈ s.applied, a.1 ≠ ref) :
    s.expected files ref = files.get? := by
  have none : s.applied.filter (fun a => a.1 = ref) = [] := by
    refine List.filter_eq_nil_iff.2 fun a mem => ?_
    simpa using h a mem
  rw [expected, none]
  rfl

theorem Folds.frame (h : Folds files s) {b : Arena} (frame : Frame s.arena b) :
    Folds files { s with arena := b } where
  base := by
    intro path
    dsimp only
    rw [frame.mapping, frame.catalog]
    exact h.base path
  registered := by
    intro id ref found
    rcases frame.registered id ref found with inside | before
    · exact inside
    · obtain ⟨o, known, same⟩ := h.registered id ref before
      obtain ⟨o', known', -, path⟩ := frame.kept ref o known
      refine ⟨o', known', ?_⟩
      exact (congrArg Prod.snd path).trans same
  addressed := fun dir objects hash data found =>
    h.addressed dir objects hash data (frame.objects dir objects found)
  bound := fun a mem => lt_of_lt_of_le (h.bound a mem) frame.length
  reads := by
    intro ref o' registered path
    change b.contentOf o' path = .ok (s.expected files ref path)
    rcases frame.old ref o' registered with ⟨new, empty⟩ | ⟨o, before, records, objects⟩
    · have fresh : s.expected files ref = files.get? := by
        apply expected_of_fresh
        intro a mem
        have := h.bound a mem
        omega
      rw [fresh, Arena.contentOf, empty, Dict.get?_empty]
      dsimp only
      rw [frame.mapping, frame.catalog]
      exact h.base path
    · have same : b.contentOf o' path = s.arena.contentOf o path := by
        unfold Arena.contentOf Arena.readObject
        rw [records, objects, frame.mapping, frame.catalog]
      rw [same]
      exact h.reads ref o before path

theorem Frame.of_eq {a b : Arena} (mapping : b.mapping = a.mapping) (catalog : b.catalog = a.catalog)
    (overlays : b.overlays = a.overlays) (registry : b.registry = a.registry)
    (objects : b.objects = a.objects) : Frame a b where
  mapping := mapping
  catalog := catalog
  length := by rw [overlays]
  registered := fun id ref found => .inr (registry ▸ found)
  kept := fun ref o found => ⟨o, overlays ▸ found, rfl, rfl⟩
  old := by
    rintro ref o' ⟨found, known⟩
    rw [overlays] at found
    rw [registry] at known
    refine .inr ⟨o', ⟨found, known⟩, rfl, ?_⟩
    rw [Arena.objectsOf, objects]
    rfl
  objects := fun dir objs found => objects ▸ found

theorem Frame.refl (a : Arena) : Frame a a := .of_eq rfl rfl rfl rfl rfl

theorem Frame.of_overlays {a b : Arena} (mapping : b.mapping = a.mapping)
    (catalog : b.catalog = a.catalog) (registry : b.registry = a.registry)
    (objects : b.objects = a.objects)
    (overlays : ∃ f : ℕ → TaskOverlay → TaskOverlay, b.overlays = a.overlays.mapIdx f ∧
      ∀ ref o, (f ref o).records = o.records ∧ (f ref o).path = o.path) : Frame a b := by
  obtain ⟨f, mapped, same⟩ := overlays
  have get : ∀ ref, b.overlays[ref]? = (a.overlays[ref]?).map (f ref) := by
    intro ref
    rw [mapped, List.getElem?_mapIdx]
  refine ⟨mapping, catalog, ?_, fun id ref found => .inr (registry ▸ found), ?_, ?_,
    fun dir objs found => objects ▸ found⟩
  · rw [mapped, List.length_mapIdx]
  · intro ref o found
    refine ⟨f ref o, ?_, same ref o⟩
    rw [get, found]
    rfl
  · rintro ref o' ⟨found, known⟩
    rw [get] at found
    obtain ⟨o, before, rfl⟩ := Option.map_eq_some_iff.1 found
    obtain ⟨records, path⟩ := same ref o
    have id : (f ref o).overlayId = o.overlayId := congrArg Prod.snd path
    rw [registry, id] at known
    refine .inr ⟨o, ⟨before, known⟩, records, ?_⟩
    rw [Arena.objectsOf, Arena.objectsOf, objects, path]

theorem frame_openSlot (a : Arena) (now : ℤ) (r : SlotRequest) : Frame a (a.openSlot now r).2 := by
  unfold Arena.openSlot
  split
  · exact .refl a
  · exact .refl a
  · exact .of_eq rfl rfl rfl rfl rfl

theorem frame_renewSlot (a : Arena) (now : ℤ) (view : SlotView) (ttl : ℤ) :
    Frame a (a.renewSlot now view ttl).2 := by
  unfold Arena.renewSlot
  split_ifs
  · exact .refl a
  · split
    · exact .refl a
    · exact .of_eq rfl rfl rfl rfl rfl

theorem frame_releaseSlot (a : Arena) (now : ℤ) (view : SlotView) :
    Frame a (a.releaseSlot now view).2 := by
  unfold Arena.releaseSlot
  split
  · exact .refl a
  · refine .of_overlays rfl rfl rfl rfl ⟨a.abandon now view.slotId, rfl, fun ref o => ?_⟩
    unfold Arena.abandon
    split_ifs <;> exact ⟨rfl, rfl⟩

theorem frame_closeOverlay (a : Arena) (now : ℤ) (view : SlotView) (ref : ℕ) :
    Frame a (a.closeOverlay now view ref).2 := by
  unfold Arena.closeOverlay
  split
  · exact .refl a
  · next o valid =>
    obtain ⟨found, -⟩ := registered_of_valid valid
    refine .of_overlays rfl rfl rfl rfl ⟨fun i o' =>
      if i = ref then { o with active := false, abandonedAt := some now,
                               records := o'.records, slotId := o'.slotId, overlayId := o'.overlayId }
      else o', ?_, fun i o' => ?_⟩
    · apply List.ext_getElem?
      intro i
      rw [List.getElem?_mapIdx]
      change (a.overlays.set ref _)[i]? = _
      rw [List.getElem?_set]
      by_cases same : ref = i
      · subst same
        obtain ⟨inside, -⟩ := List.getElem?_eq_some_iff.1 found
        rw [if_pos rfl, if_pos inside, found]
        simp
      · rw [if_neg same]
        cases a.overlays[i]? with
        | none => rfl
        | some o' =>
          rw [Option.map_some, if_neg fun e => same e.symm]
    · by_cases same : i = ref <;> simp [same, TaskOverlay.path]

theorem frame_close (a : Arena) : Frame a a.close := by
  unfold Arena.close
  split_ifs
  · exact .refl a
  · exact .of_eq rfl rfl rfl rfl rfl

theorem frame_createOverlay (a : Arena) (now : ℤ) (view : SlotView) (r : OverlayRequest) :
    Frame a (orElse a (a.createOverlay now view r)) := by
  cases made : a.createOverlay now view r with
  | error x => exact .refl a
  | ok result =>
    obtain ⟨_, -, rest⟩ := bind_ok.1 made
    split at rest
    · cases rest
      exact .refl a
    · next absent =>
      obtain ⟨_, -, rest'⟩ := bind_ok.1 rest
      obtain ⟨_, -, same⟩ := bind_ok.1 rest'
      cases same
      have last : (a.overlays ++ [a.newOverlay view r])[a.overlays.length]? =
          some (a.newOverlay view r) := by simp
      refine ⟨rfl, rfl, ?_, fun id ref found => ?_, fun ref o found => ?_, ?_, fun _ _ => id⟩
      · change a.overlays.length ≤ (a.overlays ++ [a.newOverlay view r]).length
        rw [List.length_append]
        omega
      · change (a.registry.set (a.newOverlay view r).overlayId a.overlays.length).get? id = some ref at found
        rw [Dict.get?_set] at found
        split_ifs at found with same
        · cases found
          exact .inl ⟨_, last, same.symm⟩
        · exact .inr found
      · obtain ⟨inside, -⟩ := List.getElem?_eq_some_iff.1 found
        refine ⟨o, ?_, rfl, rfl⟩
        change (a.overlays ++ [a.newOverlay view r])[ref]? = some o
        rw [List.getElem?_append_left inside]
        exact found
      · rintro ref o' ⟨found, known⟩
        change (a.overlays ++ [a.newOverlay view r])[ref]? = some o' at found
        change (a.registry.set (a.newOverlay view r).overlayId a.overlays.length).get? o'.overlayId =
          some ref at known
        rw [Dict.get?_set] at known
        split_ifs at known with same
        · cases known
          rw [last] at found
          cases found
          exact .inl ⟨Nat.le_refl _, rfl⟩
        · rcases Nat.lt_or_ge ref a.overlays.length with inside | outside
          · rw [List.getElem?_append_left inside] at found
            exact .inr ⟨o', ⟨found, known⟩, rfl, rfl⟩
          · rw [List.getElem?_append_right outside] at found
            obtain ⟨zero, same'⟩ := List.getElem?_eq_some_iff.1 found
            rw [List.getElem_singleton] at same'
            exact absurd (congrArg TaskOverlay.overlayId same'.symm) same

theorem get?_foldl_erase_path {l : List TaskOverlay} {objects : Dict (PyStr × PyStr) (Dict PyStr Bytes)}
    {dir : PyStr × PyStr} : (l.foldl (fun objects o => objects.erase o.path) objects).get? dir =
      if dir ∈ l.map TaskOverlay.path then none else objects.get? dir := by
  have mapped := Dict.get?_foldl_erase (l.map TaskOverlay.path) objects dir
  rw [List.foldl_map] at mapped
  by_cases mem : dir ∈ l.map TaskOverlay.path
  · rw [if_pos mem]
    rwa [if_pos mem] at mapped
  · rw [if_neg mem]
    rwa [if_neg mem] at mapped

theorem frame_cleanupAbandoned (a : Arena) (now olderThan : ℤ) (apply : Bool) :
    Frame a (orElse a (a.cleanupAbandoned now olderThan apply)) := by
  cases cleaned : a.cleanupAbandoned now olderThan apply with
  | error x => exact .refl a
  | ok result =>
    obtain ⟨_, -, same⟩ := bind_ok.1 cleaned
    cases same
    cases apply with
    | false => exact .refl a
    | true =>
      generalize a.abandoned (now - max 0 olderThan) = ids
      change Frame a (a.forget ids)
      refine ⟨rfl, rfl, Nat.le_refl _, fun id ref found => ?_, fun ref o found => ⟨o, found, rfl, rfl⟩,
        ?_, fun dir objects found => ?_⟩
      · change (ids.foldl Dict.erase a.registry).get? id = some ref at found
        rw [Dict.get?_foldl_erase] at found
        split_ifs at found
        exact .inr found
      · rintro ref o' ⟨found, known⟩
        change (ids.foldl Dict.erase a.registry).get? o'.overlayId = some ref at known
        rw [Dict.get?_foldl_erase] at known
        split_ifs at known with gone
        refine .inr ⟨o', ⟨found, known⟩, rfl, ?_⟩
        have stays : o'.path ∉ (a.known.filter fun o => o.overlayId ∈ ids).map TaskOverlay.path := by
          intro mem
          obtain ⟨o, inside, path⟩ := List.mem_map.1 mem
          have removed := (List.mem_filter.1 inside).2
          rw [decide_eq_true_eq] at removed
          have id : o.overlayId = o'.overlayId := congrArg Prod.snd path
          exact gone (id ▸ removed)
        have objects : (a.forget ids).objects.get? o'.path = a.objects.get? o'.path := by
          change ((a.known.filter fun o => o.overlayId ∈ ids).foldl
            (fun objects o => objects.erase o.path) a.objects).get? o'.path = _
          rw [get?_foldl_erase_path, if_neg stays]
        rw [Arena.objectsOf, Arena.objectsOf, objects]
      · change ((a.known.filter fun o => o.overlayId ∈ ids).foldl
          (fun objects o => objects.erase o.path) a.objects).get? dir = some objects at found
        rw [get?_foldl_erase_path] at found
        split_ifs at found
        exact found

/-! ## A delta -/

section

variable {a b : Arena} {now : ℤ} {view : SlotView} {ref : ℕ} {o : TaskOverlay}
  {delta : PrismWorkDelta} {changed : Arena.Changes} {old : PrismWorkDelta.Contents}

theorem get?_candidate (records : Dict PyStr (Option PyStr)) (changed : Arena.Changes) (p : PyStr) :
    (Arena.candidate records changed).get? p =
      ((changed.get? p).map fun c => c.map digestOf).or (records.get? p) := by
  obtain ⟨entries, nodup⟩ := changed
  rw [Arena.candidate, Dict.get?]
  change Dict.find (Dict.entries (entries.foldl _ records)) p =
    ((Dict.find entries p).map fun c => c.map digestOf).or (records.get? p)
  induction entries generalizing records with
  | nil => rfl
  | cons e es ih =>
    obtain ⟨k, c⟩ := e
    rw [List.map_cons, List.nodup_cons] at nodup
    rw [List.foldl_cons, ih (records.set k (c.map digestOf)) nodup.2, Dict.find_cons, Dict.get?_set]
    by_cases same : p = k
    · subst same
      have absent : Dict.find es p = none := by
        cases known : Dict.find es p with
        | none => rfl
        | some c => exact absurd (List.mem_map.2 ⟨_, Dict.mem_of_lookup known, rfl⟩) nodup.1
      rw [absent, if_pos rfl, if_pos rfl]
      rfl
    · rw [if_neg same, if_neg same]

/-- What storing contents does to a directory in which every content has its digest as its name. -/
structure Stores (contents : List (PyStr × Option Bytes)) (before after : Dict PyStr Bytes) : Prop where
  addressed : ∀ h data, after.get? h = some data → digestOf data = h
  kept : ∀ h data, before.get? h = some data → after.get? h = some data
  stored : ∀ p c, (p, some c) ∈ contents → ∃ d, after.get? (digestOf c) = some d ∧
    (before.get? (digestOf c) = some d ∨ ∃ p', (p', some d) ∈ contents)

theorem stores_storeAll (contents : List (PyStr × Option Bytes)) (before : Dict PyStr Bytes)
    (addressed : ∀ h data, before.get? h = some data → digestOf data = h) :
    (Arena.storeAll contents before).1 = .ok () ∧
      Stores contents before (Arena.storeAll contents before).2 := by
  induction contents generalizing before with
  | nil => exact ⟨rfl, addressed, fun _ _ => id, fun p c mem => absurd mem List.not_mem_nil⟩
  | cons e es ih =>
    obtain ⟨path, change⟩ := e
    cases change with
    | none =>
      obtain ⟨ok, addressed', kept, stored⟩ := ih before addressed
      refine ⟨ok, addressed', kept, fun p c mem => ?_⟩
      have later : (p, some c) ∈ es := by simpa using mem
      obtain ⟨d, found, source⟩ := stored p c later
      exact ⟨d, found, source.imp id fun ⟨p', mem'⟩ => ⟨p', List.mem_cons_of_mem _ mem'⟩⟩
    | some content =>
      cases present : before.get? (digestOf content) with
      | some existing =>
        have same : digestOf existing = digestOf content := addressed _ _ present
        have skip : Arena.storeAll ((path, some content) :: es) before = Arena.storeAll es before := by
          rw [Arena.storeAll, present]
          exact if_pos same
        rw [skip]
        obtain ⟨ok, addressed', kept, stored⟩ := ih before addressed
        refine ⟨ok, addressed', kept, fun p c mem => ?_⟩
        rcases List.mem_cons.1 mem with first | later
        · cases first
          exact ⟨existing, kept _ _ present, .inl present⟩
        · obtain ⟨d, found, source⟩ := stored p c later
          exact ⟨d, found, source.imp id fun ⟨p', mem'⟩ => ⟨p', List.mem_cons_of_mem _ mem'⟩⟩
      | none =>
        have add : Arena.storeAll ((path, some content) :: es) before =
            Arena.storeAll es (before.set (digestOf content) content) := by
          rw [Arena.storeAll, present]
        rw [add]
        have addressed₁ : ∀ h data, (before.set (digestOf content) content).get? h = some data →
            digestOf data = h := by
          intro h data found
          rw [Dict.get?_set] at found
          split_ifs at found with same
          · cases found
            exact same.symm
          · exact addressed h data found
        obtain ⟨ok, addressed', kept, stored⟩ := ih _ addressed₁
        refine ⟨ok, addressed', fun h data found => kept h data ?_, fun p c mem => ?_⟩
        · have other : h ≠ digestOf content := by
            rintro rfl
            rw [present] at found
            cases found
          rw [Dict.get?_set_of_ne _ _ other]
          exact found
        · rcases List.mem_cons.1 mem with first | later
          · cases first
            exact ⟨content, kept _ _ (Dict.get?_set_self _ _ _), .inr ⟨path, List.mem_cons_self⟩⟩
          · obtain ⟨d, found, source⟩ := stored p c later
            refine ⟨d, found, ?_⟩
            rcases source with before' | ⟨p', mem'⟩
            · rw [Dict.get?_set] at before'
              split_ifs at before' with same
              · cases before'
                exact .inr ⟨path, List.mem_cons_self⟩
              · exact .inl before'
            · exact .inr ⟨p', List.mem_cons_of_mem _ mem'⟩

/-- What a successful delta leaves behind. -/
structure Applies (a : Arena) (ref : ℕ) (o o' : TaskOverlay) (changed : Arena.Changes) (b : Arena) :
    Prop where
  records : o'.records = Arena.candidate o.records changed
  path : o'.path = o.path
  mapping : b.mapping = a.mapping
  catalog : b.catalog = a.catalog
  registry : b.registry = a.registry
  overlays : b.overlays = a.overlays.set ref o'
  objects : b.objects = a.objects.set o.path (Arena.storeAll changed.entries (a.objectsOf o)).2
  valid : ∀ now view, a.validateOverlay now view ref = .ok o → b.validateOverlay now view ref = .ok o'

theorem validateOverlay_congr {o' : TaskOverlay} (found : a.overlays[ref]? = some o)
    (objects : Dict (PyStr × PyStr) (Dict PyStr Bytes)) (active : o'.active = o.active)
    (arenaId : o'.arenaId = o.arenaId) (slotId : o'.slotId = o.slotId)
    (generation : o'.generation = o.generation) (baseHandleId : o'.baseHandleId = o.baseHandleId)
    (fence : o'.fence = o.fence) (overlayId : o'.overlayId = o.overlayId)
    (valid : a.validateOverlay now view ref = .ok o) :
    ({ a with objects := objects }.setOverlay ref o').validateOverlay now view ref = .ok o' := by
  obtain ⟨inside, -⟩ := List.getElem?_eq_some_iff.1 found
  obtain ⟨lease, slot, rest⟩ := bind_ok.1 valid
  obtain ⟨o₁, known, rest'⟩ := bind_ok.1 rest
  obtain ⟨_, checked, same⟩ := bind_ok.1 rest'
  cases same
  refine bind_ok.2 ⟨lease, slot, bind_ok.2 ⟨o', ?_, ?_⟩⟩
  · unfold Arena.overlayAt Arena.setOverlay
    dsimp only
    rw [List.getElem?_set_self inside]
  · refine bind_ok.2 ⟨(), ?_, rfl⟩
    rw [active, arenaId, slotId, generation, baseHandleId, fence, overlayId]
    exact checked

theorem applies_applyDelta (h : (a.applyDelta now view ref delta).1 = .ok ()) :
    ∃ o o' changed, a.validateOverlay now view ref = .ok o ∧
      a.changes now view ref delta = .ok changed ∧
        Applies a ref o o' changed (a.applyDelta now view ref delta).2 := by
  cases planned : a.planDelta now view ref delta with
  | error x =>
    rw [Arena.applyDelta, planned] at h
    cases h
  | ok plan =>
    obtain ⟨o, changed⟩ := plan
    have applied : a.applyDelta now view ref delta = a.commitDelta ref delta o changed := by
      rw [Arena.applyDelta, planned]
    rw [applied] at h ⊢
    obtain ⟨o₁, valid, rest⟩ := bind_ok.1 planned
    obtain ⟨changed₁, changes, rest'⟩ := bind_ok.1 rest
    obtain ⟨_, -, rest''⟩ := bind_ok.1 rest'
    obtain ⟨_, -, rest'''⟩ := bind_ok.1 rest''
    obtain ⟨_, -, same⟩ := bind_ok.1 rest'''
    cases same
    obtain ⟨found, -⟩ := registered_of_valid valid
    unfold Arena.commitDelta at h ⊢
    dsimp only at h ⊢
    split at h
    · cases h
    · cases h
    · next spans stored safe =>
      refine ⟨o, { o with
          records := Arena.candidate o.records changed
          dirtySpans := spans.foldl (fun d entry => d.set entry.1 entry.2) o.dirtySpans },
        changed, valid, changes, ⟨rfl, rfl, rfl, rfl, rfl, rfl, rfl, fun now view valid => ?_⟩⟩
      exact validateOverlay_congr found _ rfl rfl rfl rfl rfl rfl rfl valid

theorem Applies.contentOf {o' : TaskOverlay} (applies : Applies a ref o o' changed b)
    (reads : ∀ p, a.contentOf o p = .ok (old p)) {after : Dict PyStr Bytes}
    (objects : b.objects = a.objects.set o.path after) (stores : Stores changed.entries (a.objectsOf o) after)
    (p : PyStr) : b.contentOf o' p = .ok (match changed.get? p with
      | none => old p
      | some none => none
      | some (some c) => after.get? (digestOf c)) := by
  have dir : b.objectsOf o' = after := by
    rw [Arena.objectsOf, objects, applies.path, Dict.get?_set_self]
    rfl
  rw [Arena.contentOf, applies.records, get?_candidate]
  cases known : changed.get? p with
  | none =>
    -- the record is as before, and so is its content
    rw [Option.map_none, Option.none_or, ← reads p, Arena.contentOf, applies.mapping, applies.catalog]
    have before := reads p
    rw [Arena.contentOf] at before
    cases record : o.records.get? p with
    | none => rfl
    | some r =>
      rw [record] at before
      cases r with
      | none => rfl
      | some h =>
        dsimp only at before ⊢
        unfold Arena.readObject at before ⊢
        dsimp only at before ⊢
        rw [dir]
        cases held : (a.objectsOf o).get? h with
        | none =>
          rw [held] at before
          cases before
        | some data => rw [stores.kept h data held]
  | some change =>
    rw [Option.map_some, Option.some_or]
    cases change with
    | none => rfl
    | some c =>
      obtain ⟨d, found, -⟩ := stores.stored p c ((Dict.get?_eq_some_iff _ _ _).1 known)
      have named : digestOf d = digestOf c := stores.addressed _ _ found
      dsimp only [Option.map_some]
      unfold Arena.readObject
      dsimp only
      rw [dir, found]
      dsimp only
      rw [if_pos named]

theorem Applies.contentOf_of_ne {o' : TaskOverlay} (applies : Applies a ref o o' changed b)
    {ref' : ℕ} {other : TaskOverlay} (registered : a.Registered ref o) (registered' : a.Registered ref' other)
    (ne : ref' ≠ ref) (p : PyStr) : b.contentOf other p = a.contentOf other p := by
  have path : other.path ≠ o.path := by
    intro same
    have id : other.overlayId = o.overlayId := congrArg Prod.snd same
    have found := registered'.2
    rw [id, registered.2] at found
    exact ne (Option.some.inj found).symm
  have dir : b.objectsOf other = a.objectsOf other := by
    rw [Arena.objectsOf, Arena.objectsOf, applies.objects, Dict.get?_set_of_ne _ _ path]
  unfold Arena.contentOf Arena.readObject
  rw [dir, applies.mapping, applies.catalog]

theorem expected_append (ref : ℕ) (delta : PrismWorkDelta) (arena : Arena) (ref' : ℕ) :
    expected files ⟨arena, s.applied ++ [(ref, delta)]⟩ ref' =
      if ref' = ref then delta.effect (s.expected files ref) else s.expected files ref' := by
  rw [expected, List.filter_append, List.map_append, List.foldl_append]
  by_cases same : ref' = ref
  · subst same
    rw [if_pos rfl]
    simp [expected]
  · have other : ref ≠ ref' := fun e => same e.symm
    rw [if_neg same]
    simp [expected, other]

theorem content_of_stored (changes : Arena.Changed delta old changed)
    (inOrder : ∀ p, ¬ delta.Clobbers p) {c : Bytes} (h : (p, some c) ∈ changed.entries) :
    delta.change old p = some (some c) := by
  rw [← changes.kept p (inOrder p)]
  exact (Dict.get?_eq_some_iff _ _ _).2 h

theorem Folds.named (h : Folds files s) (o : TaskOverlay) :
    ∀ hash data, (s.arena.objectsOf o).get? hash = some data → digestOf data = hash := by
  intro hash data found
  unfold Arena.objectsOf at found
  cases dir : s.arena.objects.get? o.path with
  | none =>
    rw [dir] at found
    cases found
  | some objects =>
    rw [dir] at found
    exact h.addressed _ _ _ _ dir found

theorem Folds.applied (h : Folds files s) (succeeds : s.Succeeds (.applyDelta now view ref delta)) :
    ∃ o o' changed, s.arena.validateOverlay now view ref = .ok o ∧
      Arena.Changed delta (s.expected files ref) changed ∧
      Applies s.arena ref o o' changed (s.arena.applyDelta now view ref delta).2 ∧
      Stores changed.entries (s.arena.objectsOf o)
        (Arena.storeAll changed.entries (s.arena.objectsOf o)).2 ∧
      s.step (.applyDelta now view ref delta) =
        ⟨(s.arena.applyDelta now view ref delta).2, s.applied ++ [(ref, delta)]⟩ := by
  obtain ⟨o, o', changed, valid, changes, applies⟩ := applies_applyDelta succeeds
  have reads := h.reads ref o (registered_of_valid valid)
  have after := Arena.changed_of_changes valid reads changes
  refine ⟨o, o', changed, valid, after, applies, (stores_storeAll _ _ (h.named o)).2, ?_⟩
  have returned : (s.arena.applyDelta now view ref delta).1 = .ok () := succeeds
  rw [step, returned]
  rfl

theorem Folds.applyDelta (h : Folds files s)
    (succeeds : s.Succeeds (.applyDelta now view ref delta))
    (loses : ¬ s.Loses files (.applyDelta now view ref delta)) :
    Folds files (s.step (.applyDelta now view ref delta)) := by
  rw [Loses, not_or, not_exists] at loses
  obtain ⟨inOrder, noCollision⟩ := loses
  obtain ⟨o, o', changed, valid, after, applies, stores, result⟩ := h.applied succeeds
  have registered := registered_of_valid valid
  have reads := h.reads ref o registered
  rw [result]
  have own : ∀ p, (s.arena.applyDelta now view ref delta).2.contentOf o' p =
      .ok (delta.effect (s.expected files ref) p) := by
    intro p
    rw [applies.contentOf reads applies.objects stores, effect, after.kept p (inOrder p)]
    cases change : delta.change (s.expected files ref) p with
    | none => rfl
    | some value =>
      cases value with
      | none => rfl
      | some c =>
        have mem : (p, some c) ∈ changed.entries := by
          rw [← Dict.get?_eq_some_iff, after.kept p (inOrder p)]
          exact change
        obtain ⟨d, found, source⟩ := stores.stored p c mem
        have same : d = c := by
          by_contra differ
          refine noCollision ⟨p, c, d, change, fun e => differ e.symm,
            (stores.addressed _ _ found).symm, ?_⟩
          rcases source with before | ⟨p', mem'⟩
          · exact .inl ⟨o, registered.1, before⟩
          · exact .inr ⟨p', content_of_stored after inOrder mem'⟩
        dsimp only
        rw [found, same]
        rfl
  refine ⟨?_, ?_, ?_, ?_, ?_⟩
  · intro path
    dsimp only
    rw [applies.mapping, applies.catalog]
    exact h.base path
  · intro id ref' found
    dsimp only at found ⊢
    rw [applies.registry] at found
    obtain ⟨other, known, same⟩ := h.registered id ref' found
    rw [applies.overlays, List.getElem?_set]
    by_cases e : ref = ref'
    · subst e
      obtain ⟨inside, -⟩ := List.getElem?_eq_some_iff.1 known
      rw [registered.1] at known
      cases known
      refine ⟨o', by rw [if_pos rfl, if_pos inside], ?_⟩
      exact (congrArg Prod.snd applies.path).trans same
    · exact ⟨other, by rw [if_neg e, known], same⟩
  · intro dir objects hash data found held
    dsimp only at found
    rw [applies.objects, Dict.get?_set] at found
    split_ifs at found
    · cases found
      exact stores.addressed hash data held
    · exact h.addressed dir objects hash data found held
  · intro x mem
    dsimp only at mem ⊢
    rw [applies.overlays, List.length_set]
    rcases List.mem_append.1 mem with old | new
    · exact h.bound x old
    · rw [List.mem_singleton.1 new]
      exact (List.getElem?_eq_some_iff.1 registered.1).1
  · rintro ref' other ⟨found, known⟩ path
    dsimp only at found known ⊢
    rw [expected_append]
    rw [applies.registry] at known
    rw [applies.overlays, List.getElem?_set] at found
    by_cases e : ref = ref'
    · subst e
      obtain ⟨inside, -⟩ := List.getElem?_eq_some_iff.1 registered.1
      rw [if_pos rfl, if_pos inside] at found
      cases found
      rw [if_pos rfl]
      exact own path
    · rw [if_neg e] at found
      rw [if_neg fun same => e same.symm,
        applies.contentOf_of_ne registered ⟨found, known⟩ fun same => e same.symm]
      exact h.reads ref' other ⟨found, known⟩ path

theorem not_loses_of_lawful (h : Folds files s)
    (succeeds : s.Succeeds (.applyDelta now view ref delta))
    (lawful : Lawful files (s.step (.applyDelta now view ref delta))) :
    ¬ s.Loses files (.applyDelta now view ref delta) := by
  obtain ⟨o, o', changed, valid, after, applies, stores, result⟩ := h.applied succeeds
  have registered := registered_of_valid valid
  have reads := h.reads ref o registered
  rw [result] at lawful
  -- reading a changed path afterwards gives what the delta means
  have read : ∀ p v, changed.get? p = some v → (v.bind fun c =>
      (Arena.storeAll changed.entries (s.arena.objectsOf o)).2.get? (digestOf c)) =
        delta.effect (s.expected files ref) p := by
    intro p v found
    have safe := after.safe p v found
    have valid' := applies.valid now view valid
    have law := lawful.overlay now view ref o' p valid' safe
    dsimp only at law
    rw [Arena.read_of_valid valid' safe, expected_append, if_pos rfl,
      applies.contentOf reads applies.objects stores, found] at law
    have same := Except.ok.inj law
    cases v with
    | none => exact same
    | some c => exact same
  have inOrder : ∀ p, ¬ delta.Clobbers p := by
    intro p clobbers
    obtain ⟨deleted, c, change⟩ := after.clobbered p clobbers
    have law := read p none deleted
    rw [Option.bind_none] at law
    rw [effect, change] at law
    cases law
  have content : ∀ p c, delta.change (s.expected files ref) p = some (some c) →
      (Arena.storeAll changed.entries (s.arena.objectsOf o)).2.get? (digestOf c) = some c := by
    intro p c change
    have found : changed.get? p = some (some c) := by
      rw [after.kept p (inOrder p)]
      exact change
    have law := read p (some c) found
    rw [Option.bind_some] at law
    rw [law, effect, change]
    rfl
  rintro (⟨p, clobbers⟩ | ⟨p, c, c', change, differ, digests, stored | ⟨p', change'⟩⟩)
  · exact inOrder p clobbers
  · obtain ⟨o₁, found, held⟩ := stored
    rw [registered.1] at found
    cases found
    have kept := stores.kept _ _ held
    rw [content p c change] at kept
    exact differ (Option.some.inj kept)
  · have mine := content p c change
    rw [digests, content p' c' change'] at mine
    exact differ (Option.some.inj mine).symm

end

/-! ## The law -/

theorem Folds.step (h : Folds files s) (call : Call) (succeeds : s.Succeeds call)
    (loses : ¬ s.Loses files call) : Folds files (s.step call) := by
  cases call with
  | openSlot now r => exact h.frame (frame_openSlot _ now r)
  | renewSlot now view ttl => exact h.frame (frame_renewSlot _ now view ttl)
  | releaseSlot now view => exact h.frame (frame_releaseSlot _ now view)
  | createOverlay now view r => exact h.frame (frame_createOverlay _ now view r)
  | closeOverlay now view ref => exact h.frame (frame_closeOverlay _ now view ref)
  | cleanupAbandoned now olderThan apply => exact h.frame (frame_cleanupAbandoned _ now olderThan apply)
  | close => exact h.frame (frame_close _)
  | applyDelta now view ref delta => exact h.applyDelta succeeds loses

theorem folds_publish {arenaId generation baseHandleId : PyStr} {a : Arena}
    (h : Arena.publish arenaId generation baseHandleId files = .ok a) : Folds files ⟨a, []⟩ := by
  obtain ⟨blob, encoded, opened⟩ := bind_ok.1 h
  obtain ⟨catalog, decoded, reads⟩ := readBase_of_encodeBase encoded
  obtain ⟨catalog', decoded', same⟩ := bind_ok.1 opened
  rw [decoded] at decoded'
  cases decoded'
  cases same
  refine ⟨reads, ?_, ?_, ?_, ?_⟩
  · intro id ref found
    cases found
  · intro dir objects hash data found
    cases found
  · intro x mem
    cases mem
  · rintro ref o ⟨found, -⟩
    cases found

/-- In a run of a published arena whose deltas are all applied, the reads of every state give the base with
the deltas folded over it exactly when no delta of the run clobbers a path or collides. -/
theorem always_folded_iff {arenaId generation baseHandleId : PyStr} {a : Arena}
    (h : Arena.publish arenaId generation baseHandleId files = .ok a) {calls : List Call}
    (succeeds : Machine.Along step Succeeds ⟨a, []⟩ calls) :
    Machine.Always step (Lawful files) ⟨a, []⟩ calls ↔
      Machine.Along step (fun s call => ¬ s.Loses files call) ⟨a, []⟩ calls := by
  refine Machine.always_iff_along_of_admitted succeeds (folds_publish h) (fun _ => Folds.lawful)
    (fun s call folds succeeds loses => folds.step call succeeds loses) ?_
  intro s call folds succeeds lawful
  cases call with
  | applyDelta now view ref delta => exact not_loses_of_lawful folds succeeds lawful
  | _ => exact id

def sampleFiles : Dict PyStr Bytes := ((Dict.empty : Dict PyStr Bytes).set "a" [1]).set "b" [2]

def sampleArena : Arena :=
  (Arena.publish "arena" "g" "h" sampleFiles).toOption.getD ⟨[], [], [], [], .empty, .empty, .empty, [],
    .empty, .empty, false⟩

theorem publish_sampleArena : Arena.publish "arena" "g" "h" sampleFiles = .ok sampleArena := by
  have returned : (Arena.publish "arena" "g" "h" sampleFiles).toOption.isSome = true := by decide +kernel
  rw [sampleArena]
  cases published : Arena.publish "arena" "g" "h" sampleFiles with
  | error x =>
    rw [published] at returned
    cases returned
  | ok a => rfl

def sampleView : SlotView :=
  { arenaId := "arena", generation := "g", baseHandleId := "h", slotId := "slot", prismId := "prism"
    leaseId := "lease", fence := "fence" }

def sampleCalls (delta : PrismWorkDelta) : List Call :=
  [.openSlot 0 { slotId := "slot", prismId := "prism", fence := "fence", leaseId := "lease" },
    .createOverlay 1 sampleView { taskId := "task", attempt := 1, worktreeId := "w", fence := "fence" },
    .applyDelta 2 sampleView 0 delta]

def sampleRun : ArenaRun := Machine.run step ⟨sampleArena, []⟩ ((sampleCalls {}).take 2)

theorem along_sampleCalls {P : ArenaRun → Call → Prop} {delta : PrismWorkDelta}
    (others : ∀ s call, (∀ now view ref delta, call ≠ .applyDelta now view ref delta) → P s call)
    (last : P sampleRun (.applyDelta 2 sampleView 0 delta)) :
    Machine.Along step P ⟨sampleArena, []⟩ (sampleCalls delta) := by
  refine ⟨others _ _ ?_, others _ _ ?_, last, trivial⟩ <;>
    · intro now view ref delta same
      cases same

theorem succeeds_of_ne {s : ArenaRun} {call : Call}
    (h : ∀ now view ref delta, call ≠ .applyDelta now view ref delta) : s.Succeeds call := by
  cases call with
  | applyDelta now view ref delta => exact absurd rfl (h now view ref delta)
  | _ => trivial

theorem not_loses_of_ne {call : Call} (s : ArenaRun)
    (h : ∀ now view ref delta, call ≠ .applyDelta now view ref delta) : ¬ s.Loses files call := by
  cases call with
  | applyDelta now view ref delta => exact absurd rfl (h now view ref delta)
  | _ => exact id

theorem eq_ok_of_isSome {r : Except ArenaRaised Unit} (h : r.toOption.isSome = true) : r = .ok () := by
  cases r with
  | error x => cases h
  | ok u => rfl

def deleteA : PrismWorkDelta := { deletes := ["a"] }

/-- After a delete every read gives the files without the deleted one. -/
theorem always_folded_delete :
    Machine.Always step (Lawful sampleFiles) ⟨sampleArena, []⟩ (sampleCalls deleteA) := by
  have succeeds : sampleRun.Succeeds (.applyDelta 2 sampleView 0 deleteA) := by
    apply eq_ok_of_isSome
    decide +kernel
  refine (always_folded_iff publish_sampleArena
    (along_sampleCalls (fun s call => succeeds_of_ne) succeeds)).2
    (along_sampleCalls (fun s call => not_loses_of_ne s) ?_)
  rintro (⟨p, -, -, mem, -⟩ | ⟨p, c, c', change, -⟩)
  · cases mem
  · by_cases same : p = "a"
    · subst same
      cases change
    · have other : p ∉ deleteA.deletes := by simpa [deleteA] using same
      have none : deleteA.change (sampleRun.expected sampleFiles 0) p = none := if_neg other
      rw [none] at change
      cases change

def swapAB : PrismWorkDelta := { renames := ((Dict.empty : Dict PyStr PyStr).set "a" "b").set "b" "a" }

def swapped : ArenaRun := Machine.run step ⟨sampleArena, []⟩ (sampleCalls swapAB)

/-- After a swap the file `b` cannot be read any more. -/
theorem not_always_folded_swap :
    Machine.Along step Succeeds ⟨sampleArena, []⟩ (sampleCalls swapAB) ∧
      ¬ Machine.Always step (Lawful sampleFiles) ⟨sampleArena, []⟩ (sampleCalls swapAB) := by
  have succeeds : sampleRun.Succeeds (.applyDelta 2 sampleView 0 swapAB) := by
    apply eq_ok_of_isSome
    decide +kernel
  refine ⟨along_sampleCalls (fun s call => succeeds_of_ne) succeeds, fun always => ?_⟩
  have lawful : Lawful sampleFiles swapped := always (sampleCalls swapAB) [] rfl
  have facts : (swapped.arena.validateOverlay 3 sampleView 0).toOption.isSome = true ∧
      (swapped.arena.read 3 sampleView 0 "b").toOption = some none ∧
        swapped.expected sampleFiles 0 "b" = some [1] := by
    decide +kernel
  obtain ⟨valid, read, expected⟩ := facts
  cases validated : swapped.arena.validateOverlay 3 sampleView 0 with
  | error x =>
    rw [validated] at valid
    cases valid
  | ok o =>
    rw [lawful.overlay 3 sampleView 0 o "b" validated (by decide), expected] at read
    cases read

end ArenaRun

end SimplicioFast
