import SimplicioFast.Prism.Folded

/-!
# Handles that an arena hands out

`open_slot` and `create_overlay` return the slot or the overlay that is already there.  A slot whose lease was released
or has expired stays in the table of the slots, and a closed overlay in the table of the overlays until it is cleaned
up.  So what is returned is live exactly when what is already there is still live (`along_live_iff`).
-/

namespace SimplicioFast

namespace Arena

open Prism

variable {a b : Arena} {now : ℤ} {view : SlotView} {lease : GenerationLease} {ref : ℕ} {o : TaskOverlay}

theorem activeLease_eq_ok_iff : a.activeLease now view = .ok lease ↔
    a.leases.get? view.leaseId = some lease ∧ lease.active = true ∧ now < lease.expiresAt := by
  unfold activeLease
  cases a.leases.get? view.leaseId with
  | none => exact iff_of_false nofun fun h => by cases h.1
  | some found =>
    dsimp only
    by_cases stale : (!found.active || decide (found.expiresAt ≤ now)) = true
    · rw [if_pos stale]
      refine iff_of_false nofun ?_
      rintro ⟨same, active, unexpired⟩
      cases same
      rw [active, Bool.not_true, Bool.false_or, decide_eq_true_eq] at stale
      omega
    · rw [if_neg stale]
      simp only [Bool.or_eq_true, Bool.not_eq_true', decide_eq_true_eq, not_or, Bool.not_eq_false, not_le] at stale
      constructor
      · intro same
        cases same
        exact ⟨rfl, stale⟩
      · rintro ⟨same, -⟩
        cases same
        rfl

def OwnsSlot (a : Arena) (view : SlotView) : Prop :=
  view.arenaId = a.arenaId ∧ view.generation = a.generation ∧ view.baseHandleId = a.baseHandleId

def OwnsOverlay (a : Arena) (o : TaskOverlay) : Prop :=
  o.arenaId = a.arenaId ∧ o.generation = a.generation ∧ o.baseHandleId = a.baseHandleId

theorem validateSlot_eq_ok_iff : a.validateSlot now view = .ok lease ↔
    a.closed = false ∧ a.OwnsSlot view ∧ a.leases.get? view.leaseId = some lease ∧ lease.active = true ∧
      now < lease.expiresAt ∧ lease.fence = view.fence := by
  unfold validateSlot ensureOpen OwnsSlot
  constructor
  · intro valid
    obtain ⟨_, opened, valid⟩ := bind_ok.1 valid
    obtain ⟨_, owns, valid⟩ := bind_ok.1 valid
    obtain ⟨found, active, valid⟩ := bind_ok.1 valid
    obtain ⟨_, fence, same⟩ := bind_ok.1 valid
    cases same
    rw [check_eq_ok_iff] at opened owns fence
    obtain ⟨there, active, unexpired⟩ := activeLease_eq_ok_iff.1 active
    simp only [Bool.and_eq_true, decide_eq_true_eq] at owns fence
    exact ⟨by simpa using opened, ⟨owns.1.1, owns.1.2, owns.2⟩, there, active, unexpired, fence⟩
  · rintro ⟨opened, ⟨arenaId, generation, base⟩, there, active, unexpired, fence⟩
    refine bind_ok.2 ⟨(), check_eq_ok_iff.2 ?_, ?_⟩
    · rw [opened]
      rfl
    refine bind_ok.2 ⟨(), check_eq_ok_iff.2 ?_, ?_⟩
    · rw [arenaId, generation, base]
      simp
    refine bind_ok.2 ⟨lease, activeLease_eq_ok_iff.2 ⟨there, active, unexpired⟩, ?_⟩
    exact bind_ok.2 ⟨(), check_eq_ok_iff.2 (decide_eq_true fence), rfl⟩

theorem validateOverlay_eq_ok_iff : a.validateOverlay now view ref = .ok o ↔
    (∃ lease, a.validateSlot now view = .ok lease) ∧ a.overlays[ref]? = some o ∧ o.active = true ∧
      a.OwnsOverlay o ∧ o.slotId = view.slotId ∧ o.fence = view.fence ∧
        a.registry.get? o.overlayId = some ref := by
  have overlayAt_eq : a.overlayAt ref = .ok o ↔ a.overlays[ref]? = some o := by
    unfold overlayAt
    cases a.overlays[ref]? with
    | none => exact iff_of_false nofun nofun
    | some found => exact ⟨fun same => congrArg some (Except.ok.inj same), fun same => congrArg _ (Option.some.inj same)⟩
  unfold validateOverlay OwnsOverlay
  constructor
  · intro valid
    obtain ⟨lease, slot, valid⟩ := bind_ok.1 valid
    obtain ⟨found, there, valid⟩ := bind_ok.1 valid
    obtain ⟨_, checked, same⟩ := bind_ok.1 valid
    cases same
    rw [check_eq_ok_iff] at checked
    simp only [Bool.and_eq_true, decide_eq_true_eq] at checked
    obtain ⟨⟨⟨⟨⟨⟨active, arenaId⟩, slotId⟩, generation⟩, base⟩, fence⟩, known⟩ := checked
    exact ⟨⟨lease, slot⟩, overlayAt_eq.1 there, active, ⟨arenaId, generation, base⟩, slotId, fence, known⟩
  · rintro ⟨⟨lease, slot⟩, there, active, ⟨arenaId, generation, base⟩, slotId, fence, known⟩
    refine bind_ok.2 ⟨lease, slot, ?_⟩
    refine bind_ok.2 ⟨o, overlayAt_eq.2 there, ?_⟩
    refine bind_ok.2 ⟨(), check_eq_ok_iff.2 ?_, rfl⟩
    simp only [active, arenaId, slotId, generation, base, fence, known, decide_true, Bool.and_true]

/-! ## What the tables hold -/

/-- The slots and the overlays name the arena, and the registry names overlays. -/
structure Owned (a : Arena) : Prop where
  slots : ∀ id view, a.slots.get? id = some view → a.OwnsSlot view
  overlays : ∀ o ∈ a.overlays, a.OwnsOverlay o
  registered : ∀ id ref, a.registry.get? id = some ref → ∃ o, a.overlays[ref]? = some o ∧ o.overlayId = id

/-- The call keeps the ids of the arena, and what it adds to the tables names the arena. -/
structure Extends (a b : Arena) : Prop where
  ids : b.arenaId = a.arenaId ∧ b.generation = a.generation ∧ b.baseHandleId = a.baseHandleId
  slots : ∀ id view, b.slots.get? id = some view → a.slots.get? id = some view ∨ a.OwnsSlot view
  overlays : ∀ o ∈ b.overlays, a.OwnsOverlay o ∨
    ∃ o' ∈ a.overlays, o.arenaId = o'.arenaId ∧ o.generation = o'.generation ∧ o.baseHandleId = o'.baseHandleId

theorem Extends.refl (a : Arena) : Extends a a where
  ids := ⟨rfl, rfl, rfl⟩
  slots := fun _ _ found => .inl found
  overlays := fun o mem => .inr ⟨o, mem, rfl, rfl, rfl⟩

theorem Owned.extend (owned : Owned a) (extend : Extends a b) (frame : ArenaRun.Frame a b) : Owned b where
  slots id view found := by
    have own : a.OwnsSlot view := (extend.slots id view found).elim (owned.slots id view) fun own => own
    unfold OwnsSlot
    rw [extend.ids.1, extend.ids.2.1, extend.ids.2.2]
    exact own
  overlays o mem := by
    unfold OwnsOverlay
    rw [extend.ids.1, extend.ids.2.1, extend.ids.2.2]
    rcases extend.overlays o mem with own | ⟨o', mem', arenaId, generation, base⟩
    · exact own
    · obtain ⟨arenaId', generation', base'⟩ := owned.overlays o' mem'
      exact ⟨arenaId.trans arenaId', generation.trans generation', base.trans base'⟩
  registered id ref found := by
    rcases frame.registered id ref found with inside | before
    · exact inside
    · obtain ⟨o, there, named⟩ := owned.registered id ref before
      obtain ⟨o', there', -, path⟩ := frame.kept ref o there
      exact ⟨o', there', (congrArg Prod.snd path).trans named⟩

theorem extends_openSlot (a : Arena) (now : ℤ) (r : SlotRequest) : Extends a (a.openSlot now r).2 := by
  unfold openSlot
  split
  · exact .refl a
  · exact .refl a
  · refine ⟨⟨rfl, rfl, rfl⟩, fun id view found => ?_, fun o mem => .inr ⟨o, mem, rfl, rfl, rfl⟩⟩
    have found : (a.slots.set r.slotId (a.newView r)).get? id = some view := found
    rw [Dict.get?_set] at found
    split_ifs at found
    · cases found
      exact .inr ⟨rfl, rfl, rfl⟩
    · exact .inl found

theorem extends_setLease (a : Arena) (view : SlotView) (lease : GenerationLease) :
    Extends a (a.setLease view lease) :=
  ⟨⟨rfl, rfl, rfl⟩, fun _ _ found => .inl found, fun o mem => .inr ⟨o, mem, rfl, rfl, rfl⟩⟩

theorem extends_renewSlot (a : Arena) (now : ℤ) (view : SlotView) (ttl : ℤ) :
    Extends a (a.renewSlot now view ttl).2 := by
  unfold renewSlot
  split_ifs
  · exact .refl a
  · split
    · exact .refl a
    · exact extends_setLease a view _

theorem extends_releaseSlot (a : Arena) (now : ℤ) (view : SlotView) : Extends a (a.releaseSlot now view).2 := by
  unfold releaseSlot
  split
  · exact .refl a
  · refine ⟨⟨rfl, rfl, rfl⟩, fun _ _ found => .inl found, fun o mem => .inr ?_⟩
    have mem : o ∈ a.overlays.mapIdx (a.abandon now view.slotId) := mem
    obtain ⟨ref, inside, rfl⟩ := List.mem_mapIdx.1 mem
    refine ⟨a.overlays[ref], List.getElem_mem inside, ?_⟩
    unfold abandon
    split_ifs
    · exact ⟨rfl, rfl, rfl⟩
    · exact ⟨rfl, rfl, rfl⟩

theorem extends_createOverlay (a : Arena) (now : ℤ) (view : SlotView) (r : OverlayRequest) :
    Extends a (ArenaRun.orElse a (a.createOverlay now view r)) := by
  cases made : a.createOverlay now view r with
  | error x => exact .refl a
  | ok result =>
    obtain ⟨_, -, rest⟩ := bind_ok.1 made
    split at rest
    · cases rest
      exact .refl a
    · obtain ⟨_, -, rest⟩ := bind_ok.1 rest
      obtain ⟨_, -, same⟩ := bind_ok.1 rest
      cases same
      refine ⟨⟨rfl, rfl, rfl⟩, fun _ _ found => .inl found, fun o mem => ?_⟩
      have mem : o ∈ a.overlays ++ [a.newOverlay view r] := mem
      rcases List.mem_append.1 mem with old | new
      · exact .inr ⟨o, old, rfl, rfl, rfl⟩
      · rw [List.mem_singleton] at new
        subst new
        exact .inl ⟨rfl, rfl, rfl⟩

theorem extends_closeOverlay (a : Arena) (now : ℤ) (view : SlotView) (ref : ℕ) :
    Extends a (a.closeOverlay now view ref).2 := by
  unfold closeOverlay
  split
  · exact .refl a
  · rename_i o valid
    obtain ⟨found, -⟩ := ArenaRun.registered_of_valid valid
    refine ⟨⟨rfl, rfl, rfl⟩, fun _ _ found => .inl found, fun o' mem => .inr ?_⟩
    rcases List.mem_or_eq_of_mem_set mem with old | rfl
    · exact ⟨o', old, rfl, rfl, rfl⟩
    · exact ⟨o, List.mem_of_getElem? found, rfl, rfl, rfl⟩

theorem extends_cleanupAbandoned (a : Arena) (now olderThan : ℤ) (apply : Bool) :
    Extends a (ArenaRun.orElse a (a.cleanupAbandoned now olderThan apply)) := by
  cases made : a.cleanupAbandoned now olderThan apply with
  | error x => exact .refl a
  | ok result =>
    obtain ⟨_, -, same⟩ := bind_ok.1 made
    cases same
    show Extends a (if apply then a.forget (a.abandoned (now - max 0 olderThan)) else a)
    split_ifs
    · exact ⟨⟨rfl, rfl, rfl⟩, fun _ _ found => .inl found, fun o mem => .inr ⟨o, mem, rfl, rfl, rfl⟩⟩
    · exact .refl a

theorem owned_openBase {arenaId generation baseHandleId : PyStr} {blob : Bytes}
    (opened : openBase arenaId generation baseHandleId blob = .ok a) : Owned a := by
  obtain ⟨catalog, -, same⟩ := bind_ok.1 opened
  cases same
  exact ⟨nofun, nofun, nofun⟩

end Arena

/-- An arena and the clock. -/
structure ClockedArena where
  arena : Arena
  now : ℤ

namespace ClockedArena

open Prism

/-- A call at the time of the clock, or the clock advances. -/
inductive Event
  | openSlot (r : SlotRequest)
  | renewSlot (view : SlotView) (ttl : ℤ)
  | releaseSlot (view : SlotView)
  | createOverlay (view : SlotView) (r : OverlayRequest)
  | closeOverlay (view : SlotView) (ref : ℕ)
  | cleanupAbandoned (olderThan : ℤ) (apply : Bool)
  | advance (microseconds : ℕ)

variable (s : ClockedArena)

def step (s : ClockedArena) : Event → ClockedArena
  | .openSlot r => { s with arena := (s.arena.openSlot s.now r).2 }
  | .renewSlot view ttl => { s with arena := (s.arena.renewSlot s.now view ttl).2 }
  | .releaseSlot view => { s with arena := (s.arena.releaseSlot s.now view).2 }
  | .createOverlay view r =>
    { s with arena := ArenaRun.orElse s.arena (s.arena.createOverlay s.now view r) }
  | .closeOverlay view ref => { s with arena := (s.arena.closeOverlay s.now view ref).2 }
  | .cleanupAbandoned olderThan apply =>
    { s with arena := ArenaRun.orElse s.arena (s.arena.cleanupAbandoned s.now olderThan apply) }
  | .advance microseconds => { s with now := s.now + microseconds }

/-- A returned slot is admitted by `_validate_slot`, and a returned overlay by `_validate_overlay`. -/
def Live (s : ClockedArena) : Event → Prop
  | .openSlot r => ∀ view, (s.arena.openSlot s.now r).1 = .ok view →
      ∃ lease, (s.arena.openSlot s.now r).2.validateSlot s.now view = .ok lease
  | .createOverlay view r => ∀ ref a, s.arena.createOverlay s.now view r = .ok (ref, a) →
      ∃ o, a.validateOverlay s.now view ref = .ok o
  | _ => True

/-- The slot that is there has, unless the request is refused, an active and unexpired lease under its fence; the
overlay that is there is an active one of the slot. -/
def Fresh (s : ClockedArena) : Event → Prop
  | .openSlot r => s.arena.checkSlotRequest s.now r = .ok () →
      ∀ view ∈ s.arena.slots.get? r.slotId, view.fence = r.fence →
        ∃ lease ∈ s.arena.leases.get? view.leaseId,
          lease.active = true ∧ s.now < lease.expiresAt ∧ lease.fence = view.fence
  | .createOverlay view r => s.arena.checkOverlayRequest s.now view r = .ok () →
      ∀ ref ∈ s.arena.registry.get? (s.arena.overlayIdOf view r), ∀ o ∈ s.arena.overlays[ref]?,
        o.active = true ∧ o.slotId = view.slotId ∧ o.fence = view.fence
  | _ => True

instance (event : Event) : Decidable (s.Fresh event) := by
  cases event with
  | openSlot r => unfold Fresh; infer_instance
  | createOverlay view r => unfold Fresh; infer_instance
  | _ => exact .isTrue trivial

variable {s}

theorem owned_step (owned : s.arena.Owned) (event : Event) : (s.step event).arena.Owned := by
  cases event with
  | openSlot r => exact owned.extend (Arena.extends_openSlot _ _ _) (ArenaRun.frame_openSlot _ _ _)
  | renewSlot view ttl => exact owned.extend (Arena.extends_renewSlot _ _ _ _) (ArenaRun.frame_renewSlot _ _ _ _)
  | releaseSlot view => exact owned.extend (Arena.extends_releaseSlot _ _ _) (ArenaRun.frame_releaseSlot _ _ _)
  | createOverlay view r =>
    exact owned.extend (Arena.extends_createOverlay _ _ _ _) (ArenaRun.frame_createOverlay _ _ _ _)
  | closeOverlay view ref =>
    exact owned.extend (Arena.extends_closeOverlay _ _ _ _) (ArenaRun.frame_closeOverlay _ _ _ _)
  | cleanupAbandoned olderThan apply =>
    exact owned.extend (Arena.extends_cleanupAbandoned _ _ _ _) (ArenaRun.frame_cleanupAbandoned _ _ _ _)
  | advance microseconds => exact owned

/-! ## What is returned -/

theorem open_of_checkSlotRequest {a : Arena} {now : ℤ} {r : SlotRequest}
    (checked : a.checkSlotRequest now r = .ok ()) : a.closed = false ∧ 0 < r.ttl := by
  obtain ⟨_, opened, checked⟩ := bind_ok.1 checked
  obtain ⟨_, -, checked⟩ := bind_ok.1 checked
  obtain ⟨_, -, checked⟩ := bind_ok.1 checked
  obtain ⟨_, limits, -⟩ := bind_ok.1 checked
  have opened := check_eq_ok_iff.1 opened
  have limits := check_eq_ok_iff.1 limits
  simp only [Bool.and_eq_true, decide_eq_true_eq] at limits
  exact ⟨by simpa using opened, limits.1.1.2⟩

theorem validateSlot_addSlot {a : Arena} {now : ℤ} {r : SlotRequest} (opened : a.closed = false) (ttl : 0 < r.ttl) :
    ∃ lease, (a.addSlot now r).validateSlot now (a.newView r) = .ok lease := by
  refine ⟨⟨r.leaseId, a.generation, r.slotId, r.fence, now + min r.ttl DAY, true⟩, ?_⟩
  rw [Arena.validateSlot_eq_ok_iff]
  refine ⟨opened, ⟨rfl, rfl, rfl⟩, Dict.get?_set_self _ _ _, rfl, ?_, rfl⟩
  have day : 0 < DAY := by decide
  show now < now + min r.ttl DAY
  omega

theorem openSlot_of_error {a : Arena} {now : ℤ} {r : SlotRequest} {x : ArenaRaised}
    (checked : a.checkSlotRequest now r = .error x) : a.openSlot now r = (.error x, a) := by
  unfold Arena.openSlot
  rw [checked]

theorem openSlot_of_some {a : Arena} {now : ℤ} {r : SlotRequest} {existing : SlotView}
    (checked : a.checkSlotRequest now r = .ok ()) (there : a.slots.get? r.slotId = some existing) :
    a.openSlot now r = ((check (existing.fence = r.fence) "fence_stale" r.slotId).map fun _ => existing, a) := by
  unfold Arena.openSlot
  rw [checked, there]

theorem openSlot_of_none {a : Arena} {now : ℤ} {r : SlotRequest}
    (checked : a.checkSlotRequest now r = .ok ()) (there : a.slots.get? r.slotId = none) :
    a.openSlot now r = ((sealRow [r.slotId]).map fun _ => a.newView r, a.addSlot now r) := by
  unfold Arena.openSlot
  rw [checked, there]

theorem live_openSlot_iff (owned : s.arena.Owned) (r : SlotRequest) :
    s.Live (.openSlot r) ↔ s.Fresh (.openSlot r) := by
  unfold Live Fresh
  dsimp only
  cases checked : s.arena.checkSlotRequest s.now r with
  | error x =>
    rw [openSlot_of_error checked]
    exact iff_of_true (fun _ returned => by cases returned) fun passed => by cases passed
  | ok u =>
    obtain ⟨opened, ttl⟩ := open_of_checkSlotRequest checked
    cases there : s.arena.slots.get? r.slotId with
    | none =>
      rw [openSlot_of_none checked there]
      refine iff_of_true (fun view returned => ?_) fun _ _ mem => by cases mem
      cases sealed : sealRow [r.slotId] with
      | error x =>
        rw [sealed] at returned
        cases returned
      | ok u =>
        rw [sealed] at returned
        cases returned
        exact validateSlot_addSlot opened ttl
    | some existing =>
      rw [openSlot_of_some checked there]
      have own := owned.slots _ _ there
      have admitted (lease : GenerationLease) : s.arena.validateSlot s.now existing = .ok lease ↔
          s.arena.leases.get? existing.leaseId = some lease ∧
            lease.active = true ∧ s.now < lease.expiresAt ∧ lease.fence = existing.fence := by
        rw [Arena.validateSlot_eq_ok_iff]
        exact ⟨fun h => h.2.2, fun h => ⟨opened, own, h⟩⟩
      constructor
      · rintro live - view same fence
        obtain rfl := Option.some.inj same
        have returned : (check (decide (existing.fence = r.fence)) "fence_stale" r.slotId).map
            (fun _ => existing) = .ok existing := by
          rw [check_eq_ok (decide_eq_true fence)]
          rfl
        obtain ⟨lease, valid⟩ := live existing returned
        exact ⟨lease, (admitted lease).1 valid⟩
      · intro fresh view returned
        cases fence : check (decide (existing.fence = r.fence)) "fence_stale" r.slotId with
        | error x =>
          rw [fence] at returned
          cases returned
        | ok u =>
          rw [fence] at returned
          obtain rfl := Except.ok.inj returned
          obtain ⟨lease, valid⟩ := fresh rfl existing rfl (of_decide_eq_true (check_eq_ok_iff.1 fence))
          exact ⟨lease, (admitted lease).2 valid⟩

theorem createOverlay_of_error {a : Arena} {now : ℤ} {view : SlotView} {r : OverlayRequest} {x : ArenaRaised}
    (checked : a.checkOverlayRequest now view r = .error x) : a.createOverlay now view r = .error x := by
  unfold Arena.createOverlay
  rw [checked]
  rfl

theorem createOverlay_of_some {a : Arena} {now : ℤ} {view : SlotView} {r : OverlayRequest} {existing : ℕ}
    (checked : a.checkOverlayRequest now view r = .ok ())
    (there : a.registry.get? (a.overlayIdOf view r) = some existing) :
    a.createOverlay now view r = .ok (existing, a) := by
  unfold Arena.createOverlay
  rw [checked, there]
  rfl

theorem createOverlay_of_none {a b : Arena} {now : ℤ} {view : SlotView} {r : OverlayRequest} {ref : ℕ}
    (there : a.registry.get? (a.overlayIdOf view r) = none) (made : a.createOverlay now view r = .ok (ref, b)) :
    ref = a.overlays.length ∧ b = a.addOverlay (a.newOverlay view r) := by
  obtain ⟨_, -, made⟩ := bind_ok.1 made
  rw [there] at made
  obtain ⟨_, -, made⟩ := bind_ok.1 made
  obtain ⟨_, -, same⟩ := bind_ok.1 made
  cases same
  exact ⟨rfl, rfl⟩

theorem admitted_of_checkOverlayRequest {a : Arena} {now : ℤ} {view : SlotView} {r : OverlayRequest}
    (checked : a.checkOverlayRequest now view r = .ok ()) :
    (∃ lease, a.validateSlot now view = .ok lease) ∧ r.fence = view.fence := by
  obtain ⟨lease, valid, checked⟩ := bind_ok.1 checked
  obtain ⟨_, -, checked⟩ := bind_ok.1 checked
  obtain ⟨_, -, checked⟩ := bind_ok.1 checked
  have fence := check_eq_ok_iff.1 checked
  rw [Bool.and_eq_true, decide_eq_true_eq, decide_eq_true_eq] at fence
  exact ⟨⟨lease, valid⟩, fence.2⟩

theorem validateOverlay_addOverlay {a : Arena} {now : ℤ} {view : SlotView} {r : OverlayRequest}
    (checked : a.checkOverlayRequest now view r = .ok ()) :
    (a.addOverlay (a.newOverlay view r)).validateOverlay now view a.overlays.length =
      .ok (a.newOverlay view r) := by
  obtain ⟨⟨lease, valid⟩, fence⟩ := admitted_of_checkOverlayRequest checked
  refine Arena.validateOverlay_eq_ok_iff.2 ⟨⟨lease, ?_⟩, ?_, rfl, ⟨rfl, rfl, rfl⟩, rfl, fence,
    Dict.get?_set_self _ _ _⟩
  · rw [Arena.validateSlot_eq_ok_iff] at valid ⊢
    exact valid
  · show (a.overlays ++ [a.newOverlay view r])[a.overlays.length]? = _
    rw [List.getElem?_append_right le_rfl, Nat.sub_self]
    rfl

theorem live_createOverlay_iff (owned : s.arena.Owned) (view : SlotView) (r : OverlayRequest) :
    s.Live (.createOverlay view r) ↔ s.Fresh (.createOverlay view r) := by
  unfold Live Fresh
  dsimp only
  cases checked : s.arena.checkOverlayRequest s.now view r with
  | error x =>
    rw [createOverlay_of_error checked]
    exact iff_of_true (fun _ _ returned => by cases returned) fun passed => by cases passed
  | ok u =>
    cases there : s.arena.registry.get? (s.arena.overlayIdOf view r) with
    | none =>
      refine iff_of_true (fun ref a returned => ?_) fun _ _ mem => by cases mem
      obtain ⟨rfl, rfl⟩ := createOverlay_of_none there returned
      exact ⟨_, validateOverlay_addOverlay checked⟩
    | some existing =>
      rw [createOverlay_of_some checked there]
      obtain ⟨o, found, named⟩ := owned.registered _ _ there
      have own := owned.overlays o (List.mem_of_getElem? found)
      constructor
      · rintro live - ref same o' found'
        obtain rfl := Option.some.inj same
        obtain ⟨o'', admitted⟩ := live existing s.arena rfl
        obtain ⟨-, found'', active, -, slot, fence, -⟩ := Arena.validateOverlay_eq_ok_iff.1 admitted
        obtain rfl : o'' = o' := Option.some.inj (found''.symm.trans found')
        exact ⟨active, slot, fence⟩
      · intro fresh ref a returned
        cases returned
        obtain ⟨active, slot, fence⟩ := fresh rfl existing rfl o found
        obtain ⟨admitted, -⟩ := admitted_of_checkOverlayRequest checked
        refine ⟨o, Arena.validateOverlay_eq_ok_iff.2 ⟨admitted, found, active, own, slot, fence, ?_⟩⟩
        rw [named]
        exact there

theorem live_iff (owned : s.arena.Owned) (event : Event) : s.Live event ↔ s.Fresh event := by
  cases event with
  | openSlot r => exact live_openSlot_iff owned r
  | createOverlay view r => exact live_createOverlay_iff owned view r
  | _ => exact Iff.rfl

/-- In a run on an opened arena every returned handle is live exactly when every handle that was already there is. -/
theorem along_live_iff {arenaId generation baseHandleId : PyStr} {blob : Bytes} {a : Arena}
    (opened : Arena.openBase arenaId generation baseHandleId blob = .ok a) (now : ℤ) (events : List Event) :
    Machine.Along step Live ⟨a, now⟩ events ↔ Machine.Along step Fresh ⟨a, now⟩ events :=
  Machine.along_congr_of_invariant (I := fun s => s.arena.Owned) (Arena.owned_openBase opened)
    (fun _ event owned => owned_step owned event) fun _ event owned => live_iff owned event

/-! ## A released slot and a closed overlay -/

def emptyBase : Bytes := MAGIC ++ [0, 0, 0, 0]

def emptyArena : Arena :=
  { arenaId := "arena", generation := "g", baseHandleId := "h", mapping := emptyBase, catalog := .empty }

theorem openBase_emptyArena : Arena.openBase "arena" "g" "h" emptyBase = .ok emptyArena := rfl

/-- A request for the slot `slot`. -/
def slotRequest (leaseId : PyStr) : SlotRequest :=
  { slotId := "slot", prismId := "prism", fence := "fence", leaseId }

/-- The slot that the first request opens. -/
def firstSlot : SlotView := emptyArena.newView (slotRequest "first")

def overlayRequest : OverlayRequest := { taskId := "task", attempt := 1, worktreeId := "w", fence := "fence" }

/-- The slot is opened twice, and the overlay is created once more after it was closed and cleaned up. -/
def cleanedRun : List Event :=
  [.openSlot (slotRequest "first"), .openSlot (slotRequest "second"), .createOverlay firstSlot overlayRequest,
    .closeOverlay firstSlot 0, .cleanupAbandoned 0 true, .advance 1, .createOverlay firstSlot overlayRequest]

theorem along_live_cleanedRun : Machine.Along step Live ⟨emptyArena, 0⟩ cleanedRun :=
  (along_live_iff openBase_emptyArena 0 cleanedRun).2 (by decide +kernel)

/-- The slot is opened again after it was released. -/
def releasedRun : List Event :=
  [.openSlot (slotRequest "first"), .releaseSlot firstSlot, .openSlot (slotRequest "second")]

/-- The overlay is created again after it was closed. -/
def closedRun : List Event :=
  [.openSlot (slotRequest "first"), .createOverlay firstSlot overlayRequest, .closeOverlay firstSlot 0,
    .createOverlay firstSlot overlayRequest]

theorem not_along_live :
    ¬ Machine.Along step Live ⟨emptyArena, 0⟩ releasedRun ∧ ¬ Machine.Along step Live ⟨emptyArena, 0⟩ closedRun := by
  constructor
  · rintro ⟨-, -, live, -⟩
    obtain ⟨lease, valid⟩ := live firstSlot rfl
    cases valid
  · rintro ⟨-, -, -, live, -⟩
    generalize reached : (((step ⟨emptyArena, 0⟩ (.openSlot (slotRequest "first"))).step
      (.createOverlay firstSlot overlayRequest)).step (.closeOverlay firstSlot 0)) = s at live
    have stale : (s.arena.createOverlay s.now firstSlot overlayRequest).toOption.any fun made =>
        (made.2.validateOverlay s.now firstSlot made.1).toOption.isNone := by
      rw [← reached]
      decide +kernel
    cases made : s.arena.createOverlay s.now firstSlot overlayRequest with
    | error x =>
      rw [made] at stale
      cases stale
    | ok result =>
      obtain ⟨o, valid⟩ := live result.1 result.2 made
      rw [made] at stale
      have stale : (result.2.validateOverlay s.now firstSlot result.1).toOption.isNone = true := stale
      rw [valid] at stale
      cases stale

end ClockedArena

end SimplicioFast
