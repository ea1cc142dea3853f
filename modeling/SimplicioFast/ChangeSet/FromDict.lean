import SimplicioFast.ChangeSet.Basic
import SimplicioFast.Lib.JsonBytes

/-!
# Change sets from dictionaries and from bytes

`ChangeOperation.from_dict` and `BinaryChangeSet.from_dict` check a dictionary entry by entry, and `decode_binary` takes
a byte string apart and hands the dictionary that it holds to them.

A Python dictionary is a JSON object here, and a tuple is an array.
-/

namespace SimplicioFast

namespace ChangeSet

/-! ## Checks of single values -/

/-- `value.get(key)`, where `None` counts as missing. -/
def given (fs : List (PyStr × Json)) (key : PyStr) : Option Json :=
  match Dict.find fs key with
  | some .null => none
  | v => v

/-- `_text`. -/
def checkText (value : Option Json) (reason : PyStr) : Except ChangeSetRaised PyStr :=
  match value with
  | some (.str s) => if s.strip = [] then .error (.reason reason) else .ok s
  | _ => .error (.reason reason)

/-- `_sha`. -/
def checkSha (value : Option Json) : Except ChangeSetRaised (Option PyStr) :=
  match value with
  | none => .ok none
  | some (.str s) =>
    if s.asciiCasefold.isSha256 then .ok (some s.asciiCasefold) else .error (.reason "sha256_invalid")
  | some _ => .error (.reason "sha256_invalid")

/-- `_path`; the checks that follow in the source cannot fail any more, as no part is empty, `.` or `..`. -/
def checkPath (value : PyStr) : Except ChangeSetRaised PyStr :=
  if value = [] ∨ .scalar '\x00' ∈ value ∨ .scalar ':' ∈ value then .error (.reason "path_invalid")
  else
    let normalized := PyStr.replace "\\" "/" value
    let rawParts := normalized.splitOn (.scalar '/')
    if (".." : PyStr) ∈ rawParts ∨ ("." : PyStr) ∈ rawParts then
      .error (.changeSetError "path_outside_repository" value)
    else if ([] : PyStr) ∈ rawParts then .error (.changeSetError "path_invalid" value)
    else .ok normalized

/-- `_worktree`. -/
def checkWorktree (value : PyStr) : Except ChangeSetRaised PyStr :=
  if isWorktree value then .ok value else .error (.reason "worktree_invalid")

/-- The value of an integer that is not a Boolean. -/
def intOf? : Option Json → Option ℤ
  | some (.int n) => some n
  | _ => none

end ChangeSet

def OpType.ofName? (name : PyStr) : Option OpType :=
  if name = OpType.create.name then some .create
  else if name = OpType.replaceRange.name then some .replaceRange
  else if name = OpType.rename.name then some .rename
  else if name = OpType.delete.name then some .delete
  else none

namespace LineMap

def ofInts? (startLine endLine : ℤ) : Option LineMap :=
  if h : 1 ≤ startLine ∧ startLine ≤ endLine then
    some ⟨startLine.toNat, endLine.toNat, by omega, by omega⟩
  else none

/-- `sha256(canonical(line_map))`. -/
def hash (m : LineMap) : PyStr := ChangeSet.sha256 (PyStr.encodeAscii (m.toJson.dumps true))

end LineMap

/-! ## Operations -/

namespace ChangeOperation

open ChangeSet

def checkOp (fs : List (PyStr × Json)) : Except ChangeSetRaised OpType :=
  match Dict.find fs "op" with
  | none => .error (.reason "operation_type_invalid")
  | some (.str rawOp) =>
    let op := PyStr.replace "_" "-" rawOp
    match OpType.ofName? op with
    | some type => .ok type
    | none => .error (.changeSetError "operation_type_invalid" op)
  | some _ => .error (.reason "operation_type_invalid")

/-- The destination, when there is one. -/
def checkDest (fs : List (PyStr × Json)) : Except ChangeSetRaised (Option PyStr) :=
  match given fs "dest" with
  | none => .ok none
  | some v => do
    let dest ← checkPath (← checkText (some v) "path_invalid")
    return some dest

/-- The content in base64: as it is given, or of the text that is given. -/
def checkContent (fs : List (PyStr × Json)) : Except ChangeSetRaised (Option PyStr) :=
  match given fs "content_b64" with
  | some (.str s) =>
    if (Base64.decode s).isSome then .ok (some s) else .error (.reason "content_encoding_invalid")
  | some _ => .error (.reason "content_encoding_invalid")
  | none => match given fs "content" with
    | none => .ok none
    | some (.str s) => match s.encode with
      | some b => .ok (some (Base64.encode b))
      | none => .error .unicodeEncodeError
    | some _ => .error (.reason "content_invalid")

/-- The line map of a replace-range operation. -/
def checkLineMap (fs : List (PyStr × Json)) : Except ChangeSetRaised LineMap := do
  let bounds ← (match given fs "line_map" with
    | none =>
      match intOf? ((Dict.find fs "start_line").or (Dict.find fs "line_start")),
        intOf? ((Dict.find fs "end_line").or (Dict.find fs "line_end")) with
      | some startLine, some endLine => .ok (startLine, endLine)
      | _, _ => .error (ChangeSetRaised.reason "line_map_required")
    | some (.obj m) =>
      match intOf? (Dict.find m "start_line"), intOf? (Dict.find m "end_line") with
      | some startLine, some endLine => .ok (startLine, endLine)
      | _, _ => .error (ChangeSetRaised.reason "line_map_invalid")
    | some _ => .error (ChangeSetRaised.reason "line_map_invalid"))
  match LineMap.ofInts? bounds.1 bounds.2 with
  | some m => .ok m
  | none => .error (.reason "line_map_invalid")

/-- The hash of the line map that is given, if any, is right. -/
def checkLineMapHash (fs : List (PyStr × Json)) (m : LineMap) : Except ChangeSetRaised Unit :=
  match given fs "line_map_sha256" with
  | none => .ok ()
  | some (.str s) => if s = m.hash then .ok () else .error (.reason "line_map_hash_mismatch")
  | some _ => .error (.reason "line_map_hash_invalid")

/-- The encoding of a replace-range operation. -/
def checkEncoding (fs : List (PyStr × Json)) : Except ChangeSetRaised PyStr :=
  match Dict.find fs "encoding" with
  | none => .ok "utf-8"
  | v => checkText v "encoding_required"

/-- An entry that is a text, when it is given. -/
def checkOptional (fs : List (PyStr × Json)) (key reason : PyStr) : Except ChangeSetRaised (Option PyStr) :=
  match given fs key with
  | none => .ok none
  | v => do
    let s ← checkText v reason
    return some s

/-- The encoding, the line map and its hash. -/
def checkRange (fs : List (PyStr × Json)) (op : OpType) :
    Except ChangeSetRaised (Option PyStr × Option LineMap × Option PyStr) :=
  if op = .replaceRange then
    if (["byte_start", "byte_end", "offset", "byte_offset"] : List PyStr).any fun key => (Dict.find fs key).isSome then
      .error (.reason "ambiguous_byte_offset")
    else do
      let encoding ← checkEncoding fs
      let m ← checkLineMap fs
      checkLineMapHash fs m
      return (some encoding, some m, some m.hash)
  else do
    let encoding ← checkOptional fs "encoding" "encoding_invalid"
    let lineMapSha256 ← checkOptional fs "line_map_sha256" "line_map_hash_invalid"
    return (encoding, none, lineMapSha256)

/-- The entries that an operation of its type needs. -/
def checkPayload (o : ChangeOperation) : Except ChangeSetRaised Unit :=
  if o.op = .create ∧ (o.contentB64 = none ∨ o.afterSha256 = none) then .error (.reason "create_payload_missing")
  else if o.op = .replaceRange ∧ (o.contentB64 = none ∨ o.beforeSha256 = none ∨ o.afterSha256 = none) then
    .error (.reason "replace_payload_missing")
  else if o.op = .rename ∧ (o.dest = none ∨ o.beforeSha256 = none ∨ o.afterSha256 = none) then
    .error (.reason "rename_payload_missing")
  else if o.op = .delete ∧ o.beforeSha256 = none then .error (.reason "delete_payload_missing")
  else if o.op = .rename ∧ o.dest = some o.path then .error (.reason "rename_destination_invalid")
  else .ok ()

def fromDict (value : Json) : Except ChangeSetRaised ChangeOperation :=
  match value with
  | .obj fs => do
    let op ← checkOp fs
    let path ← checkPath (← checkText (Dict.find fs "path") "path_invalid")
    let dest ← checkDest fs
    let before ← checkSha (given fs "before_sha256")
    let after ← checkSha (given fs "after_sha256")
    let contentB64 ← checkContent fs
    let range ← checkRange fs op
    let o : ChangeOperation := ⟨op, path, before, after, dest, contentB64, range.1, range.2.1, range.2.2⟩
    checkPayload o
    return o
  | _ => .error (.reason "operation_invalid")

/-- The entries of a dictionary that `from_dict` accepts, check by check. -/
structure ParsedFrom (fs : List (PyStr × Json)) (o : ChangeOperation) : Prop where
  op : checkOp fs = .ok o.op
  path : (checkText (Dict.find fs "path") "path_invalid" >>= checkPath) = .ok o.path
  dest : checkDest fs = .ok o.dest
  before : checkSha (given fs "before_sha256") = .ok o.beforeSha256
  after : checkSha (given fs "after_sha256") = .ok o.afterSha256
  content : checkContent fs = .ok o.contentB64
  range : checkRange fs o.op = .ok (o.encoding, o.lineMap, o.lineMapSha256)
  payload : checkPayload o = .ok ()

variable {fs : List (PyStr × Json)} {o : ChangeOperation} {value : Json}

theorem fromDict_eq_ok_iff : fromDict (.obj fs) = .ok o ↔ ParsedFrom fs o := by
  constructor
  · intro h
    obtain ⟨op, hop, h⟩ := bind_ok.1 h
    obtain ⟨text, htext, h⟩ := bind_ok.1 h
    obtain ⟨path, hpath, h⟩ := bind_ok.1 h
    obtain ⟨dest, hdest, h⟩ := bind_ok.1 h
    obtain ⟨before, hbefore, h⟩ := bind_ok.1 h
    obtain ⟨after, hafter, h⟩ := bind_ok.1 h
    obtain ⟨contentB64, hcontent, h⟩ := bind_ok.1 h
    obtain ⟨range, hrange, h⟩ := bind_ok.1 h
    obtain ⟨_, hpayload, h⟩ := bind_ok.1 h
    cases h
    exact ⟨hop, bind_ok.2 ⟨text, htext, hpath⟩, hdest, hbefore, hafter, hcontent, hrange, hpayload⟩
  · rintro ⟨hop, hpath, hdest, hbefore, hafter, hcontent, hrange, hpayload⟩
    obtain ⟨text, htext, hpath⟩ := bind_ok.1 hpath
    exact bind_ok.2 ⟨_, hop, bind_ok.2 ⟨_, htext, bind_ok.2 ⟨_, hpath,
      bind_ok.2 ⟨_, hdest, bind_ok.2 ⟨_, hbefore, bind_ok.2 ⟨_, hafter,
      bind_ok.2 ⟨_, hcontent, bind_ok.2 ⟨_, hrange, bind_ok.2
      ⟨_, hpayload, rfl⟩⟩⟩⟩⟩⟩⟩⟩⟩

theorem exists_parsedFrom (h : fromDict value = .ok o) : ∃ fs, value = .obj fs ∧ ParsedFrom fs o := by
  cases value with
  | obj fs => exact ⟨fs, rfl, fromDict_eq_ok_iff.1 h⟩
  | _ => cases h

theorem checkContent_eq_ok {s : PyStr} (h : checkContent fs = .ok (some s)) : (Base64.decode s).isSome := by
  unfold checkContent at h
  split at h
  · split_ifs at h with decoded
    cases h
    exact decoded
  · cases h
  · split at h
    · cases h
    · split at h
      · cases h
        rw [Base64.decode_encode]
        rfl
      · cases h
    · cases h

theorem checkRange_replaceRange {encoding : Option PyStr} {lineMap : Option LineMap} {hash : Option PyStr}
    (h : checkRange fs .replaceRange = .ok (encoding, lineMap, hash)) :
    ∃ e m, encoding = some e ∧ lineMap = some m ∧ hash = some m.hash ∧ checkEncoding fs = .ok e ∧
      checkLineMap fs = .ok m ∧ checkLineMapHash fs m = .ok () := by
  unfold checkRange at h
  split_ifs at h with other offsets
  · obtain ⟨e, he, h⟩ := bind_ok.1 h
    obtain ⟨m, hm, h⟩ := bind_ok.1 h
    obtain ⟨_, hash, h⟩ := bind_ok.1 h
    cases h
    exact ⟨e, m, rfl, rfl, rfl, he, hm, hash⟩
  · exact absurd rfl other

theorem checkPayload_eq_ok_iff : checkPayload o = .ok () ↔
    (o.op = .create → o.contentB64 ≠ none ∧ o.afterSha256 ≠ none) ∧
    (o.op = .replaceRange → o.contentB64 ≠ none ∧ o.beforeSha256 ≠ none ∧ o.afterSha256 ≠ none) ∧
    (o.op = .rename → o.dest ≠ none ∧ o.beforeSha256 ≠ none ∧ o.afterSha256 ≠ none) ∧
    (o.op = .delete → o.beforeSha256 ≠ none) ∧ (o.op = .rename → o.dest ≠ some o.path) := by
  unfold checkPayload
  split_ifs with h₁ h₂ h₃ h₄ h₅
  · exact iff_of_false not_false fun all => h₁.2.elim (all.1 h₁.1).1 (all.1 h₁.1).2
  · exact iff_of_false not_false fun all =>
      h₂.2.elim (all.2.1 h₂.1).1 fun missing => missing.elim (all.2.1 h₂.1).2.1 (all.2.1 h₂.1).2.2
  · exact iff_of_false not_false fun all =>
      h₃.2.elim (all.2.2.1 h₃.1).1 fun missing => missing.elim (all.2.2.1 h₃.1).2.1 (all.2.2.1 h₃.1).2.2
  · exact iff_of_false not_false fun all => all.2.2.2.1 h₄.1 h₄.2
  · exact iff_of_false not_false fun all => all.2.2.2.2 h₅.1 h₅.2
  · exact iff_of_true rfl ⟨fun e => ⟨fun m => h₁ ⟨e, .inl m⟩, fun m => h₁ ⟨e, .inr m⟩⟩,
      fun e => ⟨fun m => h₂ ⟨e, .inl m⟩, fun m => h₂ ⟨e, .inr (.inl m)⟩, fun m => h₂ ⟨e, .inr (.inr m)⟩⟩,
      fun e => ⟨fun m => h₃ ⟨e, .inl m⟩, fun m => h₃ ⟨e, .inr (.inl m)⟩, fun m => h₃ ⟨e, .inr (.inr m)⟩⟩,
      fun e m => h₄ ⟨e, m⟩, fun e m => h₅ ⟨e, m⟩⟩

/-- Every operation that `from_dict` returns has what its type needs. -/
theorem accepted_of_fromDict (h : fromDict value = .ok o) : o.Accepted := by
  obtain ⟨fs, rfl, parsed⟩ := exists_parsedFrom h
  obtain ⟨create, replaceRange, rename, delete, apart⟩ := checkPayload_eq_ok_iff.1 parsed.payload
  refine ⟨fun some => ?_, fun e => ?_, fun e => ?_, fun e => ?_, fun e => ?_⟩
  · obtain ⟨s, hs⟩ := Option.isSome_iff_exists.1 some
    have content := parsed.content
    rw [hs] at content
    rw [ChangeOperation.content, hs]
    exact checkContent_eq_ok content
  · exact ⟨Option.isSome_iff_ne_none.2 (create e).1, Option.isSome_iff_ne_none.2 (create e).2⟩
  · have range := parsed.range
    rw [e] at range
    obtain ⟨encoding, m, he, hm, -⟩ := checkRange_replaceRange range
    obtain ⟨content, before, after⟩ := replaceRange e
    refine ⟨Option.isSome_iff_ne_none.2 content, Option.isSome_iff_ne_none.2 before,
      Option.isSome_iff_ne_none.2 after, ?_, ?_⟩
    · rw [he]
      rfl
    · rw [hm]
      rfl
  · obtain ⟨dest, before, after⟩ := rename e
    obtain ⟨d, hd⟩ := Option.ne_none_iff_exists'.1 dest
    refine ⟨Option.isSome_iff_ne_none.2 before, Option.isSome_iff_ne_none.2 after, d, hd, ?_⟩
    rintro rfl
    exact apart e hd
  · exact Option.isSome_iff_ne_none.2 (delete e)

/-- `from_dict`, with what it has checked. -/
def parse (value : Json) : Except ChangeSetRaised {o : ChangeOperation // o.Accepted} :=
  match h : fromDict value with
  | .ok o => .ok ⟨o, accepted_of_fromDict h⟩
  | .error x => .error x

end ChangeOperation

/-! ## Change sets -/

namespace BinaryChangeSet

open ChangeSet

variable (codecs : Codecs)

/-- The arguments of the constructor. -/
structure Fields where
  repository : PyStr
  baseGeneration : PyStr
  overlayGeneration : PyStr
  attempt : PyStr
  worktreeId : PyStr
  leaseId : PyStr
  fencingToken : PyStr
  allowedPaths : List PyStr
  operations : List {o : ChangeOperation // o.Accepted}
  verificationCommands : List PyStr

/-- The first path of an operation that is not allowed. -/
def notAllowed (allowed : List PyStr) (operations : List ChangeOperation) : Option PyStr :=
  (operations.flatMap ChangeOperation.paths).find? fun path => path ∉ allowed

def Fields.assemble (f : Fields) (allowed : List PyStr) (ne : f.operations ≠ []) : BinaryChangeSet where
  repository := f.repository
  baseGeneration := f.baseGeneration
  overlayGeneration := f.overlayGeneration
  attempt := f.attempt
  worktreeId := f.worktreeId
  leaseId := f.leaseId
  fencingToken := f.fencingToken
  allowedPaths := allowed
  operations := f.operations.map Subtype.val
  verificationCommands := f.verificationCommands
  accepted := fun o mem => by
    obtain ⟨p, -, rfl⟩ := List.mem_map.1 mem
    exact p.2
  operations_ne_nil := fun e => ne (List.map_eq_nil_iff.1 e)

/-- `__post_init__`: the arguments are checked, and the allowed paths sorted. -/
def postInit (f : Fields) : Except ChangeSetRaised BinaryChangeSet :=
  if f.repository = [] ∨ f.baseGeneration = [] ∨ f.overlayGeneration = [] ∨ f.attempt = [] then
    .error (.reason "binding_missing")
  else do
    let _ ← checkWorktree f.worktreeId
    if f.leaseId = [] ∨ f.fencingToken = [] then .error (.reason "authority_missing")
    else if f.allowedPaths.any fun path => path.strip = [] then .error (.reason "allowed_paths_invalid")
    else if f.verificationCommands.any fun command => command.strip = [] then
      .error (.reason "verification_commands_invalid")
    else do
      let allowed := PyStr.sortedSet (← f.allowedPaths.mapM checkPath)
      if allowed = [] then .error (.reason "allowed_paths_missing")
      else if ne : f.operations = [] then .error (.reason "operations_missing")
      else match notAllowed allowed (f.operations.map Subtype.val) with
      | some path => .error (.changeSetError "path_not_allowed" path)
      | none => .ok (f.assemble allowed ne)

/-- The items of a list entry that is left out for the empty list. -/
def listOf (value : Option Json) (reason : PyStr) : Except ChangeSetRaised (List Json) :=
  match value with
  | none => .ok []
  | some (.arr items) => .ok items
  | some _ => .error (.reason reason)

/-- The paths that are allowed: as they are given, or those of the operations. -/
def checkAllowed (fs : List (PyStr × Json)) (operations : List ChangeOperation) :
    Except ChangeSetRaised (List PyStr) :=
  match given fs "allowed_paths" with
  | none => .ok (PyStr.sortedSet ((operations.flatMap ChangeOperation.paths).filter (· ≠ [])))
  | some (.arr []) => .ok (PyStr.sortedSet ((operations.flatMap ChangeOperation.paths).filter (· ≠ [])))
  | some (.arr items) => items.mapM fun item => checkText (some item) "allowed_paths_invalid"
  | some _ => .error (.reason "allowed_paths_invalid")

def checkCommands (fs : List (PyStr × Json)) : Except ChangeSetRaised (List PyStr) := do
  let items ← listOf (Dict.find fs "verification_commands") "verification_commands_invalid"
  items.mapM fun item => checkText (some item) "verification_commands_invalid"

/-- `value.get("schema") == SCHEMA`. -/
def isSchema (fs : List (PyStr × Json)) : Bool :=
  match Dict.find fs "schema" with
  | some v => v.pyEq (.str SCHEMA)
  | none => false

/-- The change set that the entries of a dictionary describe. -/
def ofFields (fs : List (PyStr × Json)) : Except ChangeSetRaised BinaryChangeSet := do
  if isSchema fs = false then .error (.reason "schema_invalid")
  else do
    let rawOperations ← listOf (Dict.find fs "operations") "operations_invalid"
    let operations ← rawOperations.mapM ChangeOperation.parse
    let allowed ← checkAllowed fs (operations.map Subtype.val)
    let repository ← checkText (Dict.find fs "repository") "binding_missing"
    let baseGeneration ← checkText (Dict.find fs "base_generation") "binding_missing"
    let overlayGeneration ← checkText (Dict.find fs "overlay_generation") "binding_missing"
    let attempt ← checkText (Dict.find fs "attempt") "binding_missing"
    let worktreeId ← checkText (Dict.find fs "worktree_id") "worktree_invalid"
    let leaseId ← checkText (Dict.find fs "lease_id") "authority_missing"
    let fencingToken ← checkText (Dict.find fs "fencing_token") "authority_missing"
    let commands ← checkCommands fs
    postInit ⟨repository, baseGeneration, overlayGeneration, attempt, worktreeId, leaseId, fencingToken, allowed,
      operations, commands⟩

/-- The id that is given, if any, is that of the change set. -/
def checkId (fs : List (PyStr × Json)) (c : BinaryChangeSet) : Except ChangeSetRaised Unit :=
  match given fs "changeset_id" with
  | none => .ok ()
  | some supplied => do
    let id ← c.changesetId codecs
    if supplied.pyEq (.str id) then .ok () else .error (.reason "changeset_id_mismatch")

def fromDict (value : Json) : Except ChangeSetRaised BinaryChangeSet :=
  match value with
  | .obj fs => do
    let c ← ofFields fs
    checkId codecs fs c
    return c
  | _ => .error (.reason "changeset_invalid")

end BinaryChangeSet

/-! ## Bytes -/

namespace BinaryChangeSet

/-- `HEADER.size`. -/
def headerSize : ℕ := 54

/-- The header and the sections of a byte string: the metadata, the number of records, and the record section. -/
structure Sections where
  metadata : Bytes
  recordCount : ℕ
  records : Bytes

/-- `decode_binary` up to the checksum. -/
def readSections (payload : Bytes) : Except ChangeSetRaised Sections :=
  if payload.length < headerSize then .error (.reason "binary_truncated")
  else
    let metadataLen := Bytes.unpackBE (payload.slice 10 14)
    let recordCount := Bytes.unpackBE (payload.slice 14 18)
    let sectionLen := Bytes.unpackBE (payload.slice 18 22)
    let digest := payload.slice 22 54
    if payload.take 8 ≠ PyStr.asciiBytes "SFBCHG01" ∨ payload.slice 8 10 ≠ [1, 0] then
      .error (.reason "binary_header_invalid")
    else
      let endMetadata := headerSize + metadataLen
      let endSection := endMetadata + sectionLen
      if endSection ≠ payload.length then .error (.reason "binary_length_mismatch")
      else
        let metadata := payload.slice headerSize endMetadata
        let records := payload.slice endMetadata endSection
        if Sha256.digest (metadata ++ records) ≠ digest then .error (.reason "binary_checksum_mismatch")
        else .ok ⟨metadata, recordCount, records⟩

end BinaryChangeSet

end SimplicioFast
