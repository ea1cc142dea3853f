import SimplicioFast.ChangeSet.Basic

/-!
# Validating a change set

`validate` simulates the operations of a change set on a tree.  An operation whose result the tree
holds already is idempotent and changes nothing; any other operation must find the content that it
expects, and is ready.

A tree is what reading its paths gives: the bytes of a file, nothing for a missing file, or an error
for a path that cannot be read, such as a directory.
-/

namespace SimplicioFast

/-- A tree as the change-set functions see it: the resolved root, and for each relative path the
checks of `_safe_path` and the result of `_read`. -/
structure Tree where
  root : PyStr
  safe : PyStr → Except ChangeSetRaised Unit
  read : PyStr → Except ChangeSetRaised (Option Bytes)

/-- The status of one operation. -/
inductive OpStatus
  | ready
  | idempotent
deriving DecidableEq

/-- What `validate` returns. -/
structure Validation where
  changesetId : PyStr
  operations : List (PyStr × OpStatus)

namespace Validation

/-- The entry `idempotent`. -/
def idempotent (v : Validation) : Bool := v.operations.all fun s => s.2 = .idempotent

end Validation

/-- The simulated content of the paths that the operations have changed; `none` is a missing file. -/
abbrev SimState := Dict PyStr (Option Bytes)

namespace ChangeSet

variable (codecs : Codecs)

/-- The new content of `_replace`, before it is encoded. -/
def replaceLines (text replacement : PyStr) (m : LineMap) : PyStr :=
  let lines := text.splitLines
  let newline : PyStr := if PyStr.contains "\r\n" text then "\r\n" else "\n"
  let last := lines.getD (m.endLine - 1) []
  let replacement :=
    if replacement ≠ [] ∧ replacement.endsWithNewline = false ∧ last.endsWithNewline then
      replacement ++ newline
    else replacement
  let replacement := PyStr.replace "\n" newline replacement.normalizeNewlines
  (lines.take (m.startLine - 1) ++ [replacement] ++ lines.drop m.endLine).flatten

/-- A decoded text, or the error for a content that is not in the encoding. -/
def requireText (path : PyStr) : Option PyStr → Except ChangeSetRaised PyStr
  | some text => .ok text
  | none => .error (.changeSetError "encoding_mismatch" path)

def replace (current : Bytes) (o : ChangeOperation) : Except ChangeSetRaised Bytes :=
  match o.encoding, o.lineMap with
  | some encoding, some m => do
    let text ← requireText o.path (← decodeBytes codecs encoding current)
    let replacement ← requireText o.path (← decodeBytes codecs encoding (o.content.getD []))
    if m.endLine > text.splitLines.length then
      .error (.changeSetError "line_map_out_of_range" o.path)
    else encodeText codecs encoding (replaceLines text replacement m)
  | _, _ => .error (.reason "line_map_required")

/-- `state.get(path, _read(path))`: the file is read in any case. -/
def look (tree : Tree) (state : SimState) (path : PyStr) :
    Except ChangeSetRaised (Option Bytes) := do
  let onDisk ← tree.read path
  return (state.get? path).getD onDisk

/-- A create operation that finds the given content. -/
def simulateCreate (o : ChangeOperation) (state : SimState) (current : Option Bytes) :
    Except ChangeSetRaised (SimState × OpStatus) :=
  match current with
  | none => .ok (state.set o.path o.content, .ready)
  | some b =>
    if matchesHash b o.afterSha256 then .ok (state, .idempotent)
    else .error (.changeSetError "target_exists" o.path)

/-- A replace-range operation that finds the given content. -/
def simulateReplace (o : ChangeOperation) (state : SimState) (current : Option Bytes) :
    Except ChangeSetRaised (SimState × OpStatus) :=
  match current with
  | none => .error (.changeSetError "source_missing" o.path)
  | some b =>
    if matchesHash b o.afterSha256 then .ok (state, .idempotent)
    else if matchesHash b o.beforeSha256 = false then .error (.changeSetError "stale_source" o.path)
    else do
      let updated ← replace codecs b o
      if matchesHash updated o.afterSha256 then .ok (state.set o.path (some updated), .ready)
      else .error (.changeSetError "after_hash_mismatch" o.path)

/-- A rename operation that finds the given content at its source. -/
def simulateRename (tree : Tree) (o : ChangeOperation) (state : SimState) (current : Option Bytes) :
    Except ChangeSetRaised (SimState × OpStatus) :=
  match current with
  | none => do
    let destination ← look tree state o.destPath
    if destination.any (matchesHash · o.afterSha256) then .ok (state, .idempotent)
    else .error (.changeSetError "source_missing" o.path)
  | some b =>
    if matchesHash b o.beforeSha256 = false then .error (.changeSetError "stale_source" o.path)
    else do
      let destination ← look tree state o.destPath
      if destination ≠ none then .error (.changeSetError "rename_destination_exists" o.destPath)
      else .ok ((state.set o.destPath (some b)).set o.path none, .ready)

/-- A delete operation that finds the given content. -/
def simulateDelete (o : ChangeOperation) (state : SimState) (current : Option Bytes) :
    Except ChangeSetRaised (SimState × OpStatus) :=
  match current with
  | none => .ok (state, .idempotent)
  | some b =>
    if matchesHash b o.beforeSha256 then .ok (state.set o.path none, .ready)
    else .error (.changeSetError "stale_source" o.path)

/-- One round of the loop of `validate`. -/
def simulateOp (tree : Tree) (state : SimState) (o : ChangeOperation) :
    Except ChangeSetRaised (SimState × OpStatus) := do
  let current ← look tree state o.path
  match o.op with
  | .create => simulateCreate o state current
  | .replaceRange => simulateReplace codecs o state current
  | .rename => simulateRename tree o state current
  | .delete => simulateDelete o state current

/-- The loop of `validate`. -/
def simulate (tree : Tree) (state : SimState) :
    List ChangeOperation → Except ChangeSetRaised (SimState × List (PyStr × OpStatus))
  | [] => .ok (state, [])
  | o :: os => do
    let (state, status) ← simulateOp codecs tree state o
    let (state, statuses) ← simulate tree state os
    return (state, (o.path, status) :: statuses)

/-- The check of an optional binding argument. -/
def checkBinding (reason : PyStr) (held : PyStr) (given : Option PyStr) :
    Except ChangeSetRaised Unit :=
  if ∃ value ∈ given, held ≠ value then .error (.reason reason) else .ok ()

def checkRepository (c : BinaryChangeSet) (tree : Tree) : Except ChangeSetRaised Unit :=
  if c.repository ≠ tree.root then .error (.reason "repository_mismatch") else .ok ()

end ChangeSet

open ChangeSet

namespace BinaryChangeSet

variable (codecs : Codecs) (c : BinaryChangeSet)

/-- The paths that the operations name. -/
def paths : List PyStr := c.operations.flatMap ChangeOperation.paths

def validate (tree : Tree) (leaseId fencingToken : Option PyStr := none) :
    Except ChangeSetRaised Validation := do
  checkRepository c tree
  checkBinding "lease_mismatch" c.leaseId leaseId
  checkBinding "fence_mismatch" c.fencingToken fencingToken
  c.paths.forM tree.safe
  let (_, statuses) ← simulate codecs tree .empty c.operations
  let changesetId ← c.changesetId codecs
  return ⟨changesetId, statuses⟩

/-- The simulation that `validate` runs, with the contents it ends in. -/
def simulation (tree : Tree) : Except ChangeSetRaised (SimState × List (PyStr × OpStatus)) :=
  simulate codecs tree .empty c.operations

end BinaryChangeSet

namespace Tree

/-- The tree in which a simulation ends: the simulated contents, and the tree elsewhere. -/
def after (tree : Tree) (state : SimState) : Tree where
  root := tree.root
  safe := tree.safe
  read path := match state.get? path with
    | some content => .ok content
    | none => tree.read path

end Tree

end SimplicioFast
