import SimplicioFast.Lib.Json
import SimplicioFast.Prism.Base

/-!
# The PRISM arena

A `PrismArena` serves one immutable base to slots, which hold a lease, and to task overlays.  An overlay
records for each path that a delta has changed the digest of its content, or that it was deleted; the
contents are files in the directory of the overlay, named by their digests.

Overlays are objects, and a call names one by its number: two overlays of one overlay id are different
objects.  Times are in microseconds, and the clock stands still during a call.  Receipts, journals, metrics
and the hash of the overlay generation are left out; the slots below a slot, which only `child_slots` reads,
too.
-/

namespace SimplicioFast

structure GenerationLease where
  leaseId : PyStr
  generation : PyStr
  owner : PyStr
  fence : PyStr
  expiresAt : ℤ
  active : Bool := true

structure SlotView where
  arenaId : PyStr
  generation : PyStr
  baseHandleId : PyStr
  slotId : PyStr
  prismId : PyStr
  leaseId : PyStr
  fence : PyStr
  parentSlotId : Option PyStr := none
  maxOverlayBytes : ℤ := 8 * 1024 * 1024
  maxOverlayFiles : ℤ := 512

/-- `TaskOverlay`; `records` gives the digest of the content of a path, or `none` for a deleted one. -/
structure TaskOverlay where
  overlayId : PyStr
  arenaId : PyStr
  generation : PyStr
  baseHandleId : PyStr
  slotId : PyStr
  taskId : PyStr
  attempt : ℤ
  worktreeId : PyStr
  fence : PyStr
  maxBytes : ℤ
  maxFiles : ℤ
  records : Dict PyStr (Option PyStr) := .empty
  dirtySpans : Dict PyStr (List (ℤ × ℤ)) := .empty
  active : Bool := true
  abandonedAt : Option ℤ := none

structure PrismWorkDelta where
  writes : Dict PyStr Bytes := .empty
  deletes : List PyStr := []
  renames : Dict PyStr PyStr := .empty
  dirtySpans : Dict PyStr (List (ℤ × ℤ)) := .empty

/-- `PrismArena`; `overlays` are all overlay objects, `registry` the numbers of those that the arena
knows, and `objects` the contents in the directories of the overlays. -/
structure Arena where
  arenaId : PyStr
  generation : PyStr
  baseHandleId : PyStr
  mapping : Bytes
  catalog : Dict PyStr Prism.CatalogEntry
  slots : Dict PyStr SlotView := .empty
  leases : Dict PyStr GenerationLease := .empty
  overlays : List TaskOverlay := []
  registry : Dict PyStr ℕ := .empty
  objects : Dict (PyStr × PyStr) (Dict PyStr Bytes) := .empty
  closed : Bool := false

/-- The arguments of `open_slot`, and the lease id that it draws. -/
structure SlotRequest where
  slotId : PyStr
  prismId : PyStr
  fence : PyStr
  ttl : ℤ := 3600 * 10 ^ 6
  parent : Option SlotView := none
  maxOverlayBytes : ℤ := 8 * 1024 * 1024
  maxOverlayFiles : ℤ := 512
  leaseId : PyStr

/-- The arguments of `create_overlay`. -/
structure OverlayRequest where
  taskId : PyStr
  attempt : ℤ
  worktreeId : PyStr
  fence : PyStr
  maxBytes : Option ℤ := none
  maxFiles : Option ℤ := none

namespace Prism

/-- `_digest` of a byte string. -/
def digestOf (b : Bytes) : PyStr := PyStr.ofChars (Sha256.hexdigest b)

def safeComponent (value name : PyStr) : Except ArenaRaised Unit :=
  check (value ≠ [] && (parts value).getLastD [] = value && value ≠ "." && value ≠ "..")
    "identity_invalid" (name ++ " must be one safe path component")

/-- The check of `seal_receipt`, for the texts of a row that the caller has chosen. -/
def sealRow (texts : List PyStr) : Except ArenaRaised Unit :=
  if texts.any fun t => .scalar '\n' ∈ t || .scalar '\r' ∈ t then .error (.hbpError "HBP_MALFORMED_ROW")
  else if texts.any fun t => t.encode.isNone then .error .unicodeEncodeError
  else .ok ()

def DAY : ℤ := 86400 * 10 ^ 6

def MAX_OVERLAYS_PER_SLOT : ℕ := 10

end Prism

namespace TaskOverlay

def path (o : TaskOverlay) : PyStr × PyStr := (o.slotId, o.overlayId)

end TaskOverlay

namespace Arena

open Prism

def openBase (arenaId generation baseHandleId : PyStr) (blob : Bytes) : Except ArenaRaised Arena := do
  let catalog ← decodeCatalog blob
  return { arenaId := arenaId, generation := generation, baseHandleId := baseHandleId
           mapping := blob, catalog := catalog }

/-- `publish`, into an empty storage; the ids, which are digests of the base and of the file that holds
it, are given. -/
def publish (arenaId generation baseHandleId : PyStr) (files : Dict PyStr Bytes) :
    Except ArenaRaised Arena := do
  let blob ← encodeBase files
  openBase arenaId generation baseHandleId blob

/-! ## Slots -/

def ensureOpen (s : Arena) : Except ArenaRaised Unit := check (!s.closed) "arena_closed" []

/-- The lease of the view, when it is active. -/
def activeLease (s : Arena) (now : ℤ) (view : SlotView) : Except ArenaRaised GenerationLease :=
  match s.leases.get? view.leaseId with
  | none => .error (.arenaError "lease_stale" view.slotId)
  | some lease =>
    if !lease.active || lease.expiresAt ≤ now then .error (.arenaError "lease_stale" view.slotId)
    else .ok lease

def validateSlot (s : Arena) (now : ℤ) (view : SlotView) : Except ArenaRaised GenerationLease := do
  s.ensureOpen
  check (view.arenaId = s.arenaId && view.generation = s.generation &&
    view.baseHandleId = s.baseHandleId) "slot_generation_stale" view.slotId
  let lease ← s.activeLease now view
  check (lease.fence = view.fence) "fence_stale" view.slotId
  return lease

def validateParent (s : Arena) (now : ℤ) : Option SlotView → Except ArenaRaised Unit
  | none => .ok ()
  | some parent => (s.validateSlot now parent).map fun _ => ()

/-- The checks of `open_slot`. -/
def checkSlotRequest (s : Arena) (now : ℤ) (r : SlotRequest) : Except ArenaRaised Unit := do
  s.ensureOpen
  safeComponent r.slotId "slot_id"
  safeComponent r.prismId "prism_id"
  check (r.fence ≠ [] && 0 < r.ttl && 0 < r.maxOverlayBytes && 0 < r.maxOverlayFiles)
    "slot_limits_invalid" r.slotId
  s.validateParent now r.parent

/-- The view that `open_slot` makes. -/
def newView (s : Arena) (r : SlotRequest) : SlotView where
  arenaId := s.arenaId
  generation := s.generation
  baseHandleId := s.baseHandleId
  slotId := r.slotId
  prismId := r.prismId
  leaseId := r.leaseId
  fence := r.fence
  parentSlotId := r.parent.map SlotView.slotId
  maxOverlayBytes := r.maxOverlayBytes
  maxOverlayFiles := r.maxOverlayFiles

def addSlot (s : Arena) (now : ℤ) (r : SlotRequest) : Arena :=
  { s with
    leases := s.leases.set r.leaseId ⟨r.leaseId, s.generation, r.slotId, r.fence, now + min r.ttl DAY, true⟩
    slots := s.slots.set r.slotId (s.newView r) }

/-- `open_slot`; the slot is there before its row is sealed. -/
def openSlot (s : Arena) (now : ℤ) (r : SlotRequest) : Except ArenaRaised SlotView × Arena :=
  match s.checkSlotRequest now r, s.slots.get? r.slotId with
  | .error x, _ => (.error x, s)
  | .ok (), some existing => ((check (existing.fence = r.fence) "fence_stale" r.slotId).map
      fun _ => existing, s)
  | .ok (), none => ((sealRow [r.slotId]).map fun _ => s.newView r, s.addSlot now r)

/-- The arena with another lease under the lease id of the view. -/
def setLease (s : Arena) (view : SlotView) (lease : GenerationLease) : Arena :=
  { s with leases := s.leases.set view.leaseId lease }

def renewSlot (s : Arena) (now : ℤ) (view : SlotView) (ttl : ℤ) : Except ArenaRaised Unit × Arena :=
  if ttl ≤ 0 then (.error (.arenaError "lease_ttl_invalid" []), s)
  else match s.validateSlot now view with
  | .error x => (.error x, s)
  | .ok lease => (sealRow [view.slotId], s.setLease view { lease with expiresAt := now + min ttl DAY })

/-- Whether the arena knows the overlay object. -/
def Registered (s : Arena) (ref : ℕ) (o : TaskOverlay) : Prop :=
  s.overlays[ref]? = some o ∧ s.registry.get? o.overlayId = some ref

/-- The overlay after its slot was released, or as it was. -/
def abandon (s : Arena) (now : ℤ) (slotId : PyStr) (ref : ℕ) (o : TaskOverlay) : TaskOverlay :=
  if s.registry.get? o.overlayId = some ref ∧ o.slotId = slotId ∧ o.active then
    { o with active := false, abandonedAt := some now }
  else o

def releaseSlot (s : Arena) (now : ℤ) (view : SlotView) : Except ArenaRaised Unit × Arena :=
  match s.validateSlot now view with
  | .error x => (.error x, s)
  | .ok lease => (sealRow [view.slotId], { s.setLease view { lease with active := false } with
      overlays := s.overlays.mapIdx (s.abandon now view.slotId) })

/-! ## Overlays -/

/-- The digest of the identity of an overlay. -/
def overlayIdOf (s : Arena) (view : SlotView) (r : OverlayRequest) : PyStr :=
  digestOf (PyStr.encodeAscii (Json.dumps true (.obj [("arena", .str s.arenaId),
    ("generation", .str s.generation), ("slot", .str view.slotId), ("task", .str r.taskId),
    ("attempt", .int r.attempt), ("worktree", .str r.worktreeId), ("fence", .str r.fence)])))

/-- The budget of an overlay: what was asked for, unless it is nothing, within the budget of the slot. -/
def budget (asked : Option ℤ) (slot : ℤ) : ℤ :=
  match asked with
  | none => slot
  | some n => if n = 0 then slot else min n slot

/-- The overlay that `create_overlay` makes. -/
def newOverlay (s : Arena) (view : SlotView) (r : OverlayRequest) : TaskOverlay where
  overlayId := s.overlayIdOf view r
  arenaId := s.arenaId
  generation := s.generation
  baseHandleId := s.baseHandleId
  slotId := view.slotId
  taskId := r.taskId
  attempt := r.attempt
  worktreeId := r.worktreeId
  fence := r.fence
  maxBytes := budget r.maxBytes view.maxOverlayBytes
  maxFiles := budget r.maxFiles view.maxOverlayFiles

def known (s : Arena) : List TaskOverlay := s.registry.values.filterMap fun ref => s.overlays[ref]?

/-- The checks of `create_overlay` on its arguments. -/
def checkOverlayRequest (s : Arena) (now : ℤ) (view : SlotView) (r : OverlayRequest) :
    Except ArenaRaised Unit := do
  let _ ← s.validateSlot now view
  safeComponent r.taskId "task_id"
  safeComponent r.worktreeId "worktree_id"
  check (1 ≤ r.attempt && r.fence = view.fence) "fence_stale" r.taskId

def addOverlay (s : Arena) (o : TaskOverlay) : Arena :=
  { s with overlays := s.overlays ++ [o], registry := s.registry.set o.overlayId s.overlays.length }

/-- `create_overlay`; it returns the number of the overlay. -/
def createOverlay (s : Arena) (now : ℤ) (view : SlotView) (r : OverlayRequest) :
    Except ArenaRaised (ℕ × Arena) := do
  s.checkOverlayRequest now view r
  match s.registry.get? (s.overlayIdOf view r) with
  | some existing => .ok (existing, s)
  | none => do
    check ((s.known.filter fun o => o.slotId = view.slotId && o.active).length <
      MAX_OVERLAYS_PER_SLOT) "overlay_limit_exceeded" view.slotId
    sealRow [view.slotId, r.taskId]
    return (s.overlays.length, s.addOverlay (s.newOverlay view r))

/-- The overlay object of the given number. -/
def overlayAt (s : Arena) (ref : ℕ) : Except ArenaRaised TaskOverlay :=
  match s.overlays[ref]? with
  | some o => .ok o
  | none => .error (.arenaError "overlay_stale" [])

def validateOverlay (s : Arena) (now : ℤ) (view : SlotView) (ref : ℕ) :
    Except ArenaRaised TaskOverlay := do
  let _ ← s.validateSlot now view
  let o ← s.overlayAt ref
  check (o.active && o.arenaId = s.arenaId && o.slotId = view.slotId && o.generation = s.generation &&
    o.baseHandleId = s.baseHandleId && o.fence = view.fence &&
    s.registry.get? o.overlayId = some ref) "overlay_stale" o.overlayId
  return o

/-- The arena with another state of an overlay object. -/
def setOverlay (s : Arena) (ref : ℕ) (o : TaskOverlay) : Arena :=
  { s with overlays := s.overlays.set ref o }

def closeOverlay (s : Arena) (now : ℤ) (view : SlotView) (ref : ℕ) :
    Except ArenaRaised Unit × Arena :=
  match s.validateOverlay now view ref with
  | .error x => (.error x, s)
  | .ok o => (sealRow [view.slotId], s.setOverlay ref { o with active := false, abandonedAt := some now })

/-- The overlay ids that `cleanup_abandoned` finds. -/
def abandoned (s : Arena) (threshold : ℤ) : List PyStr :=
  (s.known.filter fun o => !o.active && o.abandonedAt.any (· ≤ threshold)).map TaskOverlay.overlayId

/-- The arena without the overlays of the given ids, and without their directories. -/
def forget (s : Arena) (ids : List PyStr) : Arena :=
  { s with
    registry := ids.foldl Dict.erase s.registry
    objects := (s.known.filter fun o => o.overlayId ∈ ids).foldl (fun objects o => objects.erase o.path)
      s.objects }

def cleanupAbandoned (s : Arena) (now olderThan : ℤ) (apply : Bool) :
    Except ArenaRaised (List PyStr × Arena) := do
  s.ensureOpen
  let candidates := s.abandoned (now - max 0 olderThan)
  return (candidates, if apply then s.forget candidates else s)

def close (s : Arena) : Arena :=
  if s.closed then s
  else { s with
    leases := s.leases.keys.foldl (fun leases id => match leases.get? id with
      | some lease => leases.set id { lease with active := false }
      | none => leases) s.leases
    closed := true }

/-! ## Reading -/

def baseRead (s : Arena) (now : ℤ) (view : SlotView) (path : PyStr) :
    Except ArenaRaised (Option Bytes) := do
  let _ ← s.validateSlot now view
  let path ← safePath path
  readBase s.mapping s.catalog path

/-- The contents in the directory of an overlay. -/
def objectsOf (s : Arena) (o : TaskOverlay) : Dict PyStr Bytes := (s.objects.get? o.path).getD .empty

/-- The content that a record stands for. -/
def readObject (s : Arena) (o : TaskOverlay) (path : PyStr) :
    Option PyStr → Except ArenaRaised (Option Bytes)
  | none => .ok none
  | some objectHash => match (s.objectsOf o).get? objectHash with
    | none => .error (.arenaError "overlay_corrupt" path)
    | some data =>
      if digestOf data = objectHash then .ok (some data)
      else .error (.arenaError "overlay_corrupt" path)

/-- The part of `read` behind its checks of the arguments. -/
def contentOf (s : Arena) (o : TaskOverlay) (path : PyStr) : Except ArenaRaised (Option Bytes) :=
  match o.records.get? path with
  | some record => s.readObject o path record
  | none => readBase s.mapping s.catalog path

def read (s : Arena) (now : ℤ) (view : SlotView) (ref : ℕ) (path : PyStr) :
    Except ArenaRaised (Option Bytes) := do
  let o ← s.validateOverlay now view ref
  let path ← safePath path
  s.contentOf o path

/-! ## Deltas -/

/-- The changes of a delta: the new content of a path, or `none` for a deleted one. -/
abbrev Changes := Dict PyStr (Option Bytes)

/-- The content of the source of a rename. -/
def sourceContent (source : PyStr) : Option Bytes → Except ArenaRaised Bytes
  | some content => .ok content
  | none => .error (.arenaError "rename_source_missing" source)

def renameStep (s : Arena) (now : ℤ) (view : SlotView) (ref : ℕ) (changed : Changes)
    (rename : PyStr × PyStr) : Except ArenaRaised Changes := do
  let source ← safePath rename.1
  let destination ← safePath rename.2
  let found ← s.read now view ref source
  let content ← sourceContent source found
  return (changed.set source none).set destination (some content)

def deleteStep (changed : Changes) (path : PyStr) : Except ArenaRaised Changes := do
  let path ← safePath path
  return changed.set path none

def writeStep (changed : Changes) (write : PyStr × Bytes) : Except ArenaRaised Changes := do
  let path ← safePath write.1
  return changed.set path (some write.2)

/-- `sorted(d.items())`. -/
def sortedItems {ν : Type} (d : Dict PyStr ν) : List (PyStr × ν) :=
  d.entries.insertionSort fun f g => f.1 ≤ g.1

/-- The changes of a delta: the renames, then the deletes, then the writes. -/
def changes (s : Arena) (now : ℤ) (view : SlotView) (ref : ℕ) (delta : PrismWorkDelta) :
    Except ArenaRaised Changes := do
  let changed ← (sortedItems delta.renames).foldlM (s.renameStep now view ref) .empty
  let changed ← delta.deletes.foldlM deleteStep changed
  (sortedItems delta.writes).foldlM writeStep changed

def candidate (records : Dict PyStr (Option PyStr)) (changed : Changes) : Dict PyStr (Option PyStr) :=
  changed.entries.foldl (fun records change => records.set change.1 (change.2.map digestOf)) records

/-- The size of the content of a record. -/
def sizeOf (s : Arena) (o : TaskOverlay) (changed : Changes) (record : PyStr × Option PyStr) :
    Except ArenaRaised ℕ :=
  match record.2, changed.get? record.1 with
  | none, _ => .ok 0
  | some _, some (some content) => .ok content.length
  | some objectHash, _ => match (s.objectsOf o).get? objectHash with
    | some data => .ok data.length
    | none => .error .osError

/-- The part of `apply_delta` before it changes anything: the overlay and the changes. -/
def planDelta (s : Arena) (now : ℤ) (view : SlotView) (ref : ℕ) (delta : PrismWorkDelta) :
    Except ArenaRaised (TaskOverlay × Changes) := do
  let o ← s.validateOverlay now view ref
  let changed ← s.changes now view ref delta
  let records := candidate o.records changed
  check (records.entries.length ≤ o.maxFiles) "overlay_file_budget_exceeded" o.overlayId
  let sizes ← records.entries.mapM (s.sizeOf o changed)
  check (sizes.sum ≤ o.maxBytes) "overlay_byte_budget_exceeded" o.overlayId
  return (o, changed)

/-- The contents of the changes are stored, each under its digest, unless there is one already. -/
def storeAll : List (PyStr × Option Bytes) → Dict PyStr Bytes →
    Except ArenaRaised Unit × Dict PyStr Bytes
  | [], objects => (.ok (), objects)
  | (_, none) :: rest, objects => storeAll rest objects
  | (path, some content) :: rest, objects => match objects.get? (digestOf content) with
    | none => storeAll rest (objects.set (digestOf content) content)
    | some existing =>
      if digestOf existing = digestOf content then storeAll rest objects
      else (.error (.arenaError "overlay_corrupt" path), objects)

/-- The dirty spans of a delta, with their paths checked. -/
def safeSpans (delta : PrismWorkDelta) : Except ArenaRaised (List (PyStr × List (ℤ × ℤ))) :=
  delta.dirtySpans.entries.mapM fun entry => (safePath entry.1).map fun path => (path, entry.2)

/-- The part of `apply_delta` that makes the changes; the paths of the dirty spans are checked after the
records have been replaced. -/
def commitDelta (s : Arena) (ref : ℕ) (delta : PrismWorkDelta) (o : TaskOverlay) (changed : Changes) :
    Except ArenaRaised Unit × Arena :=
  let stored := storeAll changed.entries (s.objectsOf o)
  let s := { s with objects := s.objects.set o.path stored.2 }
  let o' := { o with records := candidate o.records changed }
  match stored.1, safeSpans delta with
  | .error x, _ => (.error x, s)
  | .ok (), .error x => (.error x, s.setOverlay ref o')
  | .ok (), .ok spans => (.ok (), s.setOverlay ref { o' with
      dirtySpans := spans.foldl (fun d entry => d.set entry.1 entry.2) o.dirtySpans })

def applyDelta (s : Arena) (now : ℤ) (view : SlotView) (ref : ℕ) (delta : PrismWorkDelta) :
    Except ArenaRaised Unit × Arena :=
  match s.planDelta now view ref delta with
  | .error x => (.error x, s)
  | .ok (o, changed) => s.commitDelta ref delta o changed

end Arena

end SimplicioFast
