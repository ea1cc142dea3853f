import SimplicioFast.Deltas.Composed
import SimplicioFast.Lib.JsonSame

/-!
# Loading deltas

What `load_delta` makes of a file with the canonical text of a delta: it returns the same identity when `_normal_path`
returns every path as it is (`exists_loadDelta`), and raises when there is another path (`normal_of_file`).
-/

namespace SimplicioFast

namespace Deltas

open Json (Same sortKeys sortedFields DistinctKeys)

variable {changed changed' : Dict PyStr JsonObject} {record : JsonObject} {entries : List (PyStr × Json)} {d d' : Delta}
  {f : Fields} {i j : Identity} {p : PyStr} {v : Json} {m : JsonObject} {files : DeltaFiles}
  {worktreeId generation : PyStr}

/-! ## Records -/

/-- The records as the fields of a JSON object. -/
def fieldsOf (changed : Dict PyStr JsonObject) : List (PyStr × Json) := changed.entries.map fun e => (e.1, e.2.toJson)

theorem map_fst_fieldsOf (changed : Dict PyStr JsonObject) : (fieldsOf changed).map Prod.fst = changed.keys := by
  unfold fieldsOf Dict.keys
  rw [List.map_map]
  rfl

theorem nodup_fieldsOf (changed : Dict PyStr JsonObject) : ((fieldsOf changed).map Prod.fst).Nodup := by
  rw [map_fst_fieldsOf]
  exact changed.nodup

theorem find_fieldsOf (changed : Dict PyStr JsonObject) (p : PyStr) :
    Dict.find (fieldsOf changed) p = (changed.get? p).map JsonObject.toJson := by
  obtain ⟨l, nodup⟩ := changed
  show Dict.find (l.map fun e => (e.1, e.2.toJson)) p = (Dict.find l p).map JsonObject.toJson
  clear nodup
  induction l with
  | nil => rfl
  | cons e l ih =>
    rw [List.map_cons, Dict.find_cons, Dict.find_cons, ih]
    split_ifs <;> rfl

theorem distinctKeys_changedJson (changed : Dict PyStr JsonObject) : (changedJson changed).DistinctKeys := by
  refine ⟨nodup_fieldsOf changed, Json.distinctFields_iff.2 fun f mem => ?_⟩
  obtain ⟨e, -, rfl⟩ := List.mem_map.1 mem
  exact e.2.distinct

theorem toJson_of_ofJson? (h : JsonObject.ofJson? v = some m) : m.toJson = v := by
  cases v with
  | obj fs =>
    unfold JsonObject.ofJson? at h
    dsimp only at h
    split_ifs at h
    cases h
    rfl
  | _ => cases h

theorem isRecord_sorted (record : JsonObject) : isRecord record.sorted = isRecord record := by
  have objects (symbols : List Json) : (Json.sortItems symbols).all isObject = symbols.all isObject := by
    rw [Json.sortItems_eq_map, List.all_map]
    congr 1
    funext v
    cases v <;> rfl
  unfold isRecord
  simp only [JsonObject.get?_sorted]
  cases record.get? "sha256" with
  | none => rfl
  | some digest =>
    cases record.get? "tombstone" with
    | none => rfl
    | some tombstone =>
      cases tombstone with
      | bool b =>
        cases record.get? "symbols" with
        | none => rfl
        | some symbols =>
          cases symbols with
          | arr vs =>
            cases digest with
            | null =>
              show ((Json.sortItems vs).all isObject && if b = true then true && (Json.sortItems vs).isEmpty
                else isDigest _) = _
              rw [objects, Json.sortItems_eq_map, List.isEmpty_map]
              rfl
            | _ =>
              show ((Json.sortItems vs).all isObject && if b = true then false && (Json.sortItems vs).isEmpty
                else isDigest _) = _
              rw [objects]
              rfl
          | _ => rfl
      | _ => rfl

theorem hashOf_sorted (record : JsonObject) : hashOf record.sorted = hashOf record := by
  have flag : tombstone record.sorted = tombstone record := by
    unfold tombstone
    rw [JsonObject.get?_sorted]
    cases record.get? "tombstone" with
    | none => rfl
    | some v => cases v <;> rfl
  have text : sha256 record.sorted = sha256 record := by
    unfold sha256
    rw [JsonObject.get?_sorted]
    cases record.get? "sha256" with
    | none => rfl
    | some v => cases v <;> rfl
  unfold hashOf
  rw [flag, text]

/-! ## The same records -/

theorem map_sorted_of_same (same : Same (changedJson changed) (changedJson changed')) (p : PyStr) :
    (changed.get? p).map JsonObject.sorted = (changed'.get? p).map JsonObject.sorted := by
  have found := same.map_get?_eq (distinctKeys_changedJson _) (distinctKeys_changedJson _) p
  have found : (Dict.find (fieldsOf changed) p).map sortKeys = (Dict.find (fieldsOf changed') p).map sortKeys := found
  rw [find_fieldsOf, find_fieldsOf, Option.map_map, Option.map_map] at found
  have inj : Function.Injective (JsonObject.toJson) := fun a b h => JsonObject.ext (Json.obj.inj h)
  refine Option.map_injective inj ?_
  rw [Option.map_map, Option.map_map]
  exact found

theorem get?_composed_of_same (base : Base) (same : Same (changedJson changed) (changedJson changed')) (p : PyStr) :
    (composedSourceHashes base changed).get? p = (composedSourceHashes base changed').get? p := by
  have found := map_sorted_of_same same p
  rw [get?_composedSourceHashes, get?_composedSourceHashes]
  cases here : changed.get? p with
  | none =>
    rw [here, Option.map_none, eq_comm, Option.map_eq_none_iff] at found
    rw [found]
  | some record =>
    rw [here, Option.map_some, eq_comm, Option.map_eq_some_iff] at found
    obtain ⟨record', there, sorted⟩ := found
    rw [there]
    show hashOf record = hashOf record'
    rw [← hashOf_sorted record, ← sorted, hashOf_sorted]

theorem isSome_of_same (same : Same (changedJson changed) (changedJson changed')) (p : PyStr) :
    (changed.get? p).isSome = (changed'.get? p).isSome := by
  have found := congrArg Option.isSome (map_sorted_of_same same p)
  rwa [Option.isSome_map, Option.isSome_map] at found

/-! ## Identities -/

theorem distinctKeys_identity (i : Identity) : i.toJson.DistinctKeys := by
  have keys : (["schema", "base_generation", "base_commit", "base_config_fingerprint", "base_schema",
    "base_snapshot_sha256", "worktree_id", "changed"] : List PyStr).Nodup := by decide
  exact ⟨keys, trivial, trivial, trivial, trivial, trivial, trivial, trivial, distinctKeys_changedJson _, trivial⟩

/-- The same identity names the same base and has the same records. -/
structure Identity.Alike (i j : Identity) : Prop where
  baseGeneration : i.baseGeneration = j.baseGeneration
  baseCommit : i.baseCommit = j.baseCommit
  baseConfigFingerprint : i.baseConfigFingerprint = j.baseConfigFingerprint
  baseSchema : i.baseSchema = j.baseSchema
  baseSnapshotSha256 : i.baseSnapshotSha256 = j.baseSnapshotSha256
  worktreeId : i.worktreeId = j.worktreeId
  changed : Same (changedJson i.changed) (changedJson j.changed)

theorem alike_of_same (same : Same i.toJson j.toJson) : i.Alike j := by
  have found := same.map_get?_eq (distinctKeys_identity i) (distinctKeys_identity j)
  have text {s t : PyStr} (h : (some (Json.str s)).map sortKeys = (some (Json.str t)).map sortKeys) : s = t :=
    Json.str.inj (Option.some.inj h)
  exact ⟨text (found "base_generation"), text (found "base_commit"), text (found "base_config_fingerprint"),
    text (found "base_schema"), text (found "base_snapshot_sha256"), text (found "worktree_id"),
    Option.some.inj (found "changed")⟩

theorem Identity.Alike.same (alike : i.Alike j) : Same i.toJson j.toJson := by
  have keys (i : Identity) := (distinctKeys_identity i).1
  refine Json.same_obj_of_forall (keys i) (keys j) fun k => ?_
  obtain ⟨generation, commit, fingerprint, schema, snapshot, worktree, changed⟩ := alike
  simp only [Dict.find_cons, generation, commit, fingerprint, schema, snapshot, worktree]
  split_ifs
  iterate 7 rfl
  · exact congrArg some changed
  · rfl

theorem canonicalJson_eq_ok_iff {text : Bytes} : canonicalJson v = .ok text ↔ (v.dumps false).encode = some text := by
  unfold canonicalJson
  cases (v.dumps false).encode with
  | none => exact iff_of_false nofun nofun
  | some b => rw [Except.ok.injEq, Option.some.injEq]

theorem same_of_canonicalJson {w : Json} {text : Bytes} (hv : v.DistinctKeys) (hw : w.DistinctKeys)
    (first : canonicalJson v = .ok text) (second : canonicalJson w = .ok text) : Same v w :=
  Json.sortKeys_eq_of_dumps_eq hv hw (PyStr.encode_injective (canonicalJson_eq_ok_iff.1 first)
    (canonicalJson_eq_ok_iff.1 second))

theorem digest_of_same {w : Json} (same : Same v w) : digest v = digest w := by
  unfold digest canonicalJson
  rw [same.dumps_eq]

/-! ## Deltas -/

theorem make_eq_ok_iff : f.make = .ok d ↔ d.toFields = f := by
  unfold Fields.make
  split
  · next e invalid =>
    refine iff_of_false nofun ?_
    rintro rfl
    cases invalid.symm.trans d.valid
  · next valid =>
    rw [Except.ok.injEq]
    constructor
    · rintro rfl
      rfl
    · rintro rfl
      rfl

theorem postInit_eq_ok_iff : f.postInit = .ok () ↔ (∀ t ∈ f.texts, t.strip ≠ []) ∧ f.deltaGeneration.isSha256 = true ∧
    f.baseGeneration.isSha256 = true ∧ f.schema = DELTA_SCHEMA ∧ f.baseSchema = MANIFEST_SCHEMA ∧
      f.baseSnapshotSha256.isSha256 = true ∧ f.deltaSha256.isSha256 = true ∧
        ∀ e ∈ f.changed.entries, isRecord e.2 = true := by
  unfold Fields.postInit
  simp only [bind_ok, require_eq_ok_iff, Except.forM_eq_ok_iff, validateRecord, requireAt_eq_ok_iff,
    exists_const, List.all_eq_true, Bool.and_eq_true, decide_eq_true_eq, and_assoc]

theorem Delta.isRecord (d : Delta) : ∀ e ∈ d.changed.entries, isRecord e.2 = true :=
  (postInit_eq_ok_iff.1 d.valid).2.2.2.2.2.2.2

theorem loadRecord_eq_ok_iff {entry : PyStr × Json} : loadRecord changed entry = .ok changed' ↔
    ∃ record, JsonObject.ofJson? entry.2 = some record ∧ normalPath entry.1 = .ok entry.1 ∧ isRecord record = true ∧
      changed.set entry.1 record = changed' := by
  unfold loadRecord
  cases JsonObject.ofJson? entry.2 with
  | none => exact iff_of_false nofun (by rintro ⟨record, ⟨⟩, -⟩)
  | some record =>
    dsimp only
    simp only [bind_ok, require_eq_ok_iff, validateRecord, requireAt_eq_ok_iff, exists_const,
      decide_eq_true_eq, Option.some.injEq]
    constructor
    · rintro ⟨normalized, normal, rfl, valid, set⟩
      exact ⟨record, rfl, normal, valid, Except.ok.inj set⟩
    · rintro ⟨record', rfl, normal, valid, set⟩
      exact ⟨entry.1, normal, rfl, valid, congrArg Except.ok set⟩

theorem foldlM_loadRecord (nodup : ((fieldsOf changed ++ entries).map Prod.fst).Nodup)
    (ran : entries.foldlM loadRecord changed = .ok changed') :
    fieldsOf changed' = fieldsOf changed ++ entries ∧ ∀ e ∈ entries, normalPath e.1 = .ok e.1 := by
  induction entries generalizing changed with
  | nil =>
    cases ran
    exact ⟨(List.append_nil _).symm, fun _ mem => by cases mem⟩
  | cons e entries ih =>
    rw [List.foldlM_cons] at ran
    obtain ⟨middle, first, rest⟩ := bind_ok.1 ran
    obtain ⟨record, read, normal, -, rfl⟩ := loadRecord_eq_ok_iff.1 first
    have absent : e.1 ∉ changed.keys := by
      rw [← map_fst_fieldsOf]
      rw [List.map_append, List.map_cons] at nodup
      exact fun mem => (List.nodup_append.1 nodup).2.2 _ mem _ List.mem_cons_self rfl
    have step : fieldsOf (changed.set e.1 record) = fieldsOf changed ++ [e] := by
      show (Dict.setEntries e.1 record changed.entries).map _ = _
      rw [Dict.setEntries_of_notMem record absent, List.map_append, List.map_singleton, toJson_of_ofJson? read]
      rfl
    obtain ⟨fields, normals⟩ := ih (by rw [step, List.append_assoc]; exact nodup) rest
    refine ⟨?_, List.forall_mem_cons.2 ⟨normal, normals⟩⟩
    rw [fields, step, List.append_assoc]
    rfl

theorem exists_foldlM_loadRecord (changed : Dict PyStr JsonObject) (all : ∀ e ∈ entries, normalPath e.1 = .ok e.1 ∧
    ∃ record, JsonObject.ofJson? e.2 = some record ∧ isRecord record = true) :
    ∃ changed', entries.foldlM loadRecord changed = .ok changed' := by
  induction entries generalizing changed with
  | nil => exact ⟨changed, rfl⟩
  | cons e entries ih =>
    obtain ⟨⟨normal, record, read, valid⟩, rest⟩ := List.forall_mem_cons.1 all
    obtain ⟨changed', ran⟩ := ih (changed.set e.1 record) rest
    refine ⟨changed', ?_⟩
    rw [List.foldlM_cons]
    exact bind_ok.2 ⟨_, loadRecord_eq_ok_iff.2 ⟨record, read, normal, valid, rfl⟩, ran⟩

/-! ## Documents -/

/-- The document of a delta as a dictionary. -/
def Fields.document (f : Fields) : JsonObject where
  fields := [("schema", .str f.schema), ("delta_generation", .str f.deltaGeneration),
    ("base_generation", .str f.baseGeneration), ("base_commit", .str f.baseCommit),
    ("base_config_fingerprint", .str f.baseConfigFingerprint), ("base_schema", .str f.baseSchema),
    ("base_snapshot_sha256", .str f.baseSnapshotSha256), ("worktree_id", .str f.worktreeId),
    ("changed", changedJson f.changed), ("created_at", .str f.createdAt), ("delta_sha256", .str f.deltaSha256)]
  distinct := by
    have keys : (["schema", "delta_generation", "base_generation", "base_commit", "base_config_fingerprint", "base_schema",
      "base_snapshot_sha256", "worktree_id", "changed", "created_at", "delta_sha256"] : List PyStr).Nodup := by decide +kernel
    exact ⟨keys, trivial, trivial, trivial, trivial, trivial, trivial, trivial, trivial, distinctKeys_changedJson _,
      trivial, trivial, trivial⟩

theorem fromDict_eq (schema : m.get? "schema" = some (.str DELTA_SCHEMA))
    (texts : ∀ key ∈ required, (m.get? key).any isText = true) (records : m.get? "changed" = some (.obj entries)) :
    fromDict m = entries.foldlM loadRecord .empty >>= fun changed => (fieldsFrom m changed).make := by
  have named : ((m.get? "schema").any isText && textOf m "schema" = DELTA_SCHEMA) = true := by
    unfold textOf
    rw [schema]
    decide
  have present : (required.find? fun key => (m.get? key).isNone) = none := by
    refine List.find?_eq_none.2 fun key mem none => ?_
    have text := texts key mem
    rw [Option.isNone_iff_eq_none.1 none] at text
    cases text
  unfold fromDict
  rw [named, present, List.all_eq_true.2 texts, records]
  rfl

/-- What `Delta.from_dict` makes of the document of a delta with its keys sorted. -/
theorem fromDict_document (valid : f.schema = DELTA_SCHEMA) : fromDict f.document.sorted =
    (sortedFields (fieldsOf f.changed)).foldlM loadRecord .empty >>= fun changed => ({ f with changed } : Fields).make := by
  have text (k : PyStr) (t : PyStr) (h : f.document.get? k = some (.str t)) :
      f.document.sorted.get? k = some (.str t) := by
    rw [JsonObject.get?_sorted, h]
    rfl
  have schema := text "schema" _ rfl
  have deltaGeneration := text "delta_generation" _ rfl
  have baseGeneration := text "base_generation" _ rfl
  have baseCommit := text "base_commit" _ rfl
  have baseConfigFingerprint := text "base_config_fingerprint" _ rfl
  have baseSchema := text "base_schema" _ rfl
  have baseSnapshotSha256 := text "base_snapshot_sha256" _ rfl
  have worktreeId := text "worktree_id" _ rfl
  have createdAt := text "created_at" _ rfl
  have deltaSha256 := text "delta_sha256" _ rfl
  have records : f.document.sorted.get? "changed" = some (.obj (sortedFields (fieldsOf f.changed))) := by
    rw [JsonObject.get?_sorted]
    rfl
  have texts : ∀ key ∈ required, (f.document.sorted.get? key).any isText = true := by
    unfold required
    simp only [List.forall_mem_cons, deltaGeneration, baseGeneration, baseCommit, baseConfigFingerprint, baseSchema,
      baseSnapshotSha256, worktreeId, createdAt, deltaSha256]
    exact ⟨rfl, rfl, rfl, rfl, rfl, rfl, rfl, rfl, rfl, fun _ mem => by cases mem⟩
  rw [fromDict_eq (by rw [schema, valid]) texts records]
  unfold fieldsFrom textOf
  rw [schema, deltaGeneration, baseGeneration, baseCommit, baseConfigFingerprint, baseSchema, baseSnapshotSha256,
    worktreeId, createdAt, deltaSha256]

/-- What a dictionary that `Delta.from_dict` accepts has under `changed`. -/
theorem normal_of_fromDict (read : fromDict m = .ok d) :
    ∀ p, (d.changed.get? p).isSome = true → normalPath p = .ok p := by
  obtain ⟨-, -, read⟩ := bind_ok.1 read
  split at read
  · cases read
  · obtain ⟨-, -, read⟩ := bind_ok.1 read
    split at read
    · next entries records =>
      obtain ⟨changed, ran, made⟩ := bind_ok.1 read
      have same : d.changed = changed := congrArg (fun f : Fields => f.changed) (make_eq_ok_iff.1 made)
      have nodup : ((fieldsOf .empty ++ entries).map Prod.fst).Nodup := (JsonObject.distinct_of_get? records).1
      obtain ⟨fields, normal⟩ := foldlM_loadRecord nodup ran
      intro p some
      rw [same] at some
      have mem : p ∈ (fieldsOf changed).map Prod.fst := by
        rw [map_fst_fieldsOf]
        exact (Dict.isSome_get?_iff _ _).1 some
      rw [fields] at mem
      obtain ⟨e, inside, rfl⟩ := List.mem_map.1 mem
      exact normal e inside
    · cases read

theorem normal_of_loadDelta (loaded : loadDelta files worktreeId generation = .ok d) :
    ∀ p, (d.changed.get? p).isSome = true → normalPath p = .ok p := by
  obtain ⟨-, -, loaded⟩ := bind_ok.1 loaded
  obtain ⟨-, -, loaded⟩ := bind_ok.1 loaded
  obtain ⟨v, -, loaded⟩ := bind_ok.1 loaded
  obtain ⟨delta, read, loaded⟩ := bind_ok.1 loaded
  obtain ⟨-, -, loaded⟩ := bind_ok.1 loaded
  obtain ⟨-, -, loaded⟩ := bind_ok.1 loaded
  cases loaded
  unfold ofJson at read
  split at read
  · cases read
  · exact normal_of_fromDict read

theorem spec_of_loadDelta (loaded : loadDelta files worktreeId generation = .ok d) :
    d.deltaGeneration = generation ∧ d.worktreeId = worktreeId ∧ digest d.toIdentity.toJson = .ok generation := by
  obtain ⟨-, -, loaded⟩ := bind_ok.1 loaded
  obtain ⟨-, -, loaded⟩ := bind_ok.1 loaded
  obtain ⟨v, -, loaded⟩ := bind_ok.1 loaded
  obtain ⟨delta, -, loaded⟩ := bind_ok.1 loaded
  obtain ⟨_, named, loaded⟩ := bind_ok.1 loaded
  obtain ⟨_, verified, loaded⟩ := bind_ok.1 loaded
  cases loaded
  obtain ⟨generation', same, equal⟩ := bind_ok.1 verified
  have named := require_eq_ok_iff.1 named
  have equal := require_eq_ok_iff.1 equal
  simp only [Bool.and_eq_true, decide_eq_true_eq] at named equal
  exact ⟨named.1, named.2, by rw [same, equal.1, named.1]⟩

/-! ## Files -/

theorem readDelta_eq {text : Bytes} (canonical : canonicalJson d.toDict = .ok text)
    (file : files.get? (worktreeId, generation) = some text) :
    readDelta files worktreeId generation = .ok d.document.sorted.toJson := by
  have loads : Json.loads (d.toDict.dumps false) = some d.document.sorted.toJson :=
    Json.loads_dumps _ d.document.distinct
  unfold readDelta
  rw [file, Option.bind_some, PyStr.decode_encode (canonicalJson_eq_ok_iff.1 canonical), Option.bind_some, loads]

theorem ofJson_document (d : Delta) : ofJson d.document.sorted.toJson =
    (sortedFields (fieldsOf d.changed)).foldlM loadRecord .empty >>= fun changed =>
      ({ d.toFields with changed } : Fields).make := by
  unfold ofJson
  rw [JsonObject.ofJson?_toJson]
  exact fromDict_document (postInit_eq_ok_iff.1 d.valid).2.2.2.1

theorem nodup_sortedFields (changed : Dict PyStr JsonObject) :
    ((fieldsOf .empty ++ sortedFields (fieldsOf changed)).map Prod.fst).Nodup :=
  (Json.distinctKeys_sortKeys _ (distinctKeys_changedJson changed)).1

theorem normal_of_file {text : Bytes} (canonical : canonicalJson d.toDict = .ok text)
    (file : files.get? (worktreeId, generation) = some text)
    (loaded : loadDelta files worktreeId generation = .ok d') :
    ∀ p, (d.changed.get? p).isSome = true → normalPath p = .ok p := by
  obtain ⟨-, -, loaded⟩ := bind_ok.1 loaded
  obtain ⟨-, -, loaded⟩ := bind_ok.1 loaded
  obtain ⟨v, value, loaded⟩ := bind_ok.1 loaded
  obtain ⟨delta, read, -⟩ := bind_ok.1 loaded
  cases (readDelta_eq canonical file).symm.trans value
  rw [ofJson_document] at read
  obtain ⟨changed, ran, -⟩ := bind_ok.1 read
  obtain ⟨-, normal⟩ := foldlM_loadRecord (nodup_sortedFields d.changed) ran
  intro p some
  obtain ⟨entry, listed, rfl⟩ := List.mem_map.1 ((Dict.isSome_get?_iff _ _).1 some)
  exact normal _ (Json.mem_sortedFields.2 ⟨(entry.1, entry.2.toJson), List.mem_map_of_mem listed, rfl⟩)

theorem exists_loadDelta {text : Bytes} (worktree : checkWorktreeId d.worktreeId = .ok ())
    (verified : digest d.toIdentity.toJson = .ok d.deltaGeneration) (sealed : d.deltaSha256 = d.deltaGeneration)
    (canonical : canonicalJson d.toDict = .ok text)
    (file : files.get? (d.worktreeId, d.deltaGeneration) = some text)
    (normal : ∀ p, (d.changed.get? p).isSome = true → normalPath p = .ok p) :
    ∃ d', loadDelta files d.worktreeId d.deltaGeneration = .ok d' ∧ d'.toIdentity.Alike d.toIdentity := by
  have valid := postInit_eq_ok_iff.1 d.valid
  -- every record is read back with its keys sorted
  have all : ∀ e ∈ sortedFields (fieldsOf d.changed), normalPath e.1 = .ok e.1 ∧
      ∃ record, JsonObject.ofJson? e.2 = some record ∧ isRecord record = true := by
    intro e mem
    obtain ⟨g, inside, rfl⟩ := Json.mem_sortedFields.1 mem
    obtain ⟨entry, listed, rfl⟩ := List.mem_map.1 inside
    refine ⟨normal entry.1 ?_, entry.2.sorted, JsonObject.ofJson?_toJson entry.2.sorted, ?_⟩
    · exact (Dict.isSome_get?_iff _ _).2 (List.mem_map_of_mem listed)
    · rw [isRecord_sorted]
      exact d.isRecord entry listed
  obtain ⟨changed, ran⟩ := exists_foldlM_loadRecord .empty all
  have fields : fieldsOf changed = sortedFields (fieldsOf d.changed) :=
    (foldlM_loadRecord (nodup_sortedFields d.changed) ran).1
  have same : Same (changedJson changed) (changedJson d.changed) := by
    show Same (.obj (fieldsOf changed)) _
    rw [fields]
    exact Json.same_sortKeys (changedJson d.changed)
  have init : ({ d.toFields with changed } : Fields).postInit = .ok () := by
    refine postInit_eq_ok_iff.2 ⟨valid.1, valid.2.1, valid.2.2.1, valid.2.2.2.1, valid.2.2.2.2.1, valid.2.2.2.2.2.1,
      valid.2.2.2.2.2.2.1, fun e mem => ?_⟩
    have inside : (e.1, e.2.toJson) ∈ sortedFields (fieldsOf d.changed) := fields ▸ List.mem_map_of_mem mem
    obtain ⟨-, record, read, valid⟩ := all _ inside
    rw [JsonObject.ofJson?_toJson, Option.some.injEq] at read
    exact read ▸ valid
  have made : ofJson d.document.sorted.toJson = .ok ⟨{ d.toFields with changed }, init⟩ := by
    rw [ofJson_document, ran]
    exact make_eq_ok_iff.2 rfl
  have alike : Identity.Alike { d.toIdentity with changed } d.toIdentity := ⟨rfl, rfl, rfl, rfl, rfl, rfl, same⟩
  refine ⟨⟨{ d.toFields with changed }, init⟩, ?_, alike⟩
  refine bind_ok.2 ⟨(), worktree, bind_ok.2 ⟨(), if_pos valid.2.1,
    bind_ok.2 ⟨_, readDelta_eq canonical file, bind_ok.2 ⟨_, made, ?_⟩⟩⟩⟩
  refine bind_ok.2 ⟨(), require_eq_ok_iff.2 (by simp), bind_ok.2 ⟨(), ?_, rfl⟩⟩
  refine bind_ok.2 ⟨d.deltaGeneration, ?_, require_eq_ok_iff.2 ?_⟩
  · rw [← verified]
    exact digest_of_same alike.same
  · show (decide (d.deltaGeneration = d.deltaGeneration) && decide (d.deltaGeneration = d.deltaSha256)) = true
    rw [sealed]
    simp

end Deltas

end SimplicioFast
