import SimplicioFast.Projection.Envelope

/-!
# Reading an envelope back

`decode` gives back an envelope from the canonical text of its record, with the keys of its payload
and its budgets sorted (`decode_canonical`).  That takes two things of the envelope: no text in it
holds a surrogate pair, and its payload is within the limits also when its keys are sorted.
-/

namespace SimplicioFast

namespace Projection

/-! ## The checks -/

theorem check_eq_ok_iff {condition : Bool} {reason : PyStr} :
    check condition reason = .ok () ↔ condition = true := by
  unfold check
  by_cases h : condition = true
  · simp [h]
  · simp [h]

theorem check_of {condition : Bool} {reason : PyStr} (h : condition = true) :
    check condition reason = .ok () :=
  check_eq_ok_iff.2 h

theorem validateText_eq_ok_iff {s t field : PyStr} :
    validateText (.str s) field = .ok t ↔ t = s ∧ isText s = true := by
  unfold validateText
  by_cases h : isText s = true
  · simp [h, eq_comm]
  · simp [h]

/-- A sequence that `_validate_sequence` accepts. -/
def Sequence (texts : List PyStr) : Prop := texts.length ≤ MAX_ITEMS ∧ ∀ s ∈ texts, isText s = true

theorem mapM_text? (texts : List PyStr) :
    (texts.map Json.str).mapM text? = if ∀ s ∈ texts,
    isText s = true then some texts else none := by
  induction texts with
  | nil => rfl
  | cons s texts ih =>
    rw [List.map_cons, List.mapM_cons, ih, text?]
    simp only [List.forall_mem_cons]
    by_cases hs : isText s = true
    · by_cases h : ∀ s ∈ texts, isText s = true
      · rw [if_pos hs, if_pos h, if_pos ⟨hs, h⟩]
        rfl
      · rw [if_pos hs, if_neg h, if_neg fun all => h all.2]
        rfl
    · have blank : ¬ (isText s = true ∧ ∀ s ∈ texts, isText s = true) := fun all => hs all.1
      rw [if_neg hs, if_neg blank]
      rfl

theorem validateSequence_listOf_iff {texts texts' : List PyStr} {field : PyStr} :
    validateSequence (Fields.listOf texts) field = .ok texts' ↔
        texts' = texts ∧ Sequence texts := by
  rw [Fields.listOf, validateSequence, List.length_map, mapM_text?, Sequence]
  by_cases long : MAX_ITEMS < texts.length
  · rw [if_pos long]
    constructor
    · intro h
      cases h
    · rintro ⟨-, short, -⟩
      omega
  · rw [if_neg long]
    by_cases all : ∀ s ∈ texts, isText s = true
    · rw [if_pos all]
      constructor
      · intro h
        cases h
        exact ⟨rfl, by omega, all⟩
      · rintro ⟨rfl, -⟩
        rfl
    · rw [if_neg all]
      constructor
      · intro h
        cases h
      · rintro ⟨-, -, h⟩
        exact absurd h all

/-- What the constructor accepts. -/
structure Fields.Valid (f : Fields) : Prop where
  texts : ∀ t ∈ f.texts, isText t.1 = true
  known : f.projectionType ∈ PROJECTION_TYPES
  limits : ∃ n, rejectPrivateFields 0 0 f.payload.toJson = .ok n
  shaped : validateSha256Digest f.payloadSha256 "payload_sha256" = .ok ()
  sealed : digest f.payload.toJson = .ok f.payloadSha256
  handles : Sequence f.stableHandles
  handle : f.stableHandle ∈ f.stableHandles
  capabilities : Sequence f.capabilitiesRequired
  truncations : Sequence f.truncationReasons
  deletions : Sequence f.tombstones
  bounds : validateBudgets f.budgets = .ok ()

theorem Fields.postInit_eq_ok_iff {f : Fields} : f.postInit = .ok () ↔ f.Valid := by
  constructor
  · intro h
    obtain ⟨_, texts, h⟩ := bind_ok.1 h
    obtain ⟨_, known, h⟩ := bind_ok.1 h
    obtain ⟨n, limits, h⟩ := bind_ok.1 h
    obtain ⟨_, shaped, h⟩ := bind_ok.1 h
    obtain ⟨expected, sealed, h⟩ := bind_ok.1 h
    obtain ⟨_, same, h⟩ := bind_ok.1 h
    obtain ⟨_, listed, h⟩ := bind_ok.1 h
    obtain ⟨_, handle, h⟩ := bind_ok.1 h
    obtain ⟨_, capabilities, h⟩ := bind_ok.1 h
    obtain ⟨_, truncations, h⟩ := bind_ok.1 h
    obtain ⟨_, deletions, bounds⟩ := bind_ok.1 h
    obtain ⟨rfl, handles⟩ := validateSequence_listOf_iff.1 listed
    rw [check_eq_ok_iff, Bool.and_eq_true, decide_eq_true_eq] at handle
    rw [check_eq_ok_iff, decide_eq_true_eq] at same known
    refine ⟨fun t mem => ?_, known, ⟨n, limits⟩, shaped, same ▸ sealed, handles,
      of_decide_eq_true handle.2,
      (validateSequence_listOf_iff.1 capabilities).2, (validateSequence_listOf_iff.1 truncations).2,
      (validateSequence_listOf_iff.1 deletions).2, bounds⟩
    obtain ⟨s, valid, -⟩ := bind_ok.1 (Except.forM_eq_ok_iff.1 texts t mem)
    exact (validateText_eq_ok_iff.1 valid).2
  · intro h
    obtain ⟨n, limits⟩ := h.limits
    have handle :
        check (f.stableHandles ≠ [] && f.stableHandle ∈ f.stableHandles) "stable_handles_invalid" =
        .ok () := by
      refine check_of ?_
      rw [Bool.and_eq_true, decide_eq_true_eq, decide_eq_true_eq]
      exact ⟨List.ne_nil_of_mem h.handle, h.handle⟩
    have texts (t : PyStr × PyStr) (mem : t ∈ f.texts) : validateText (.str t.1) t.2 = .ok t.1 :=
      validateText_eq_ok_iff.2 ⟨rfl, h.texts t mem⟩
    refine bind_ok.2 ⟨(), Except.forM_eq_ok_iff.2 fun t mem =>
      bind_ok.2 ⟨_, texts t mem, rfl⟩, ?_⟩
    refine bind_ok.2 ⟨(), check_of (decide_eq_true h.known), ?_⟩
    refine bind_ok.2 ⟨n, limits, ?_⟩
    refine bind_ok.2 ⟨(), h.shaped, ?_⟩
    refine bind_ok.2 ⟨_, h.sealed, ?_⟩
    refine bind_ok.2 ⟨(), check_of (decide_eq_true rfl), ?_⟩
    refine bind_ok.2 ⟨_, validateSequence_listOf_iff.2 ⟨rfl, h.handles⟩, ?_⟩
    refine bind_ok.2 ⟨(), handle, ?_⟩
    refine bind_ok.2 ⟨_, validateSequence_listOf_iff.2 ⟨rfl, h.capabilities⟩, ?_⟩
    refine bind_ok.2 ⟨_, validateSequence_listOf_iff.2 ⟨rfl, h.truncations⟩, ?_⟩
    exact bind_ok.2 ⟨_, validateSequence_listOf_iff.2 ⟨rfl, h.deletions⟩, h.bounds⟩

/-! ## The fields with sorted keys -/

namespace Fields

variable {f g : Fields}

/-- The fields with the keys of the payload and of the budgets sorted. -/
def sorted (f : Fields) : Fields :=
  { f with payload := f.payload.sorted, budgets := f.budgets.map JsonObject.sorted }

theorem sortKeys_listOf (l : List PyStr) : (listOf l).sortKeys = listOf l := by
  rw [listOf, Json.sortKeys, Json.sortItems_eq_map, List.map_map]
  rfl

theorem sortKeys_optStr (s : Option PyStr) : (Json.optStr s).sortKeys = Json.optStr s := by
  cases s <;> rfl

theorem items_sorted (f : Fields) : f.sorted.items = Json.sortFields f.items := by
  have budgets : (f.sorted.budgets.map JsonObject.toJson).getD .null =
      ((f.budgets.map JsonObject.toJson).getD .null).sortKeys := by
    show ((f.budgets.map JsonObject.sorted).map JsonObject.toJson).getD .null = _
    cases f.budgets <;> rfl
  simp only [items, Json.sortFields, Json.sortField, budgets, sortKeys_listOf, sortKeys_optStr,
    Json.sortKeys]
  rfl

theorem toDict_sorted (f : Fields) : f.sorted.toDict.sortKeys = f.toDict.sortKeys := by
  have twice : Json.sortFields (Json.sortFields f.items) = Json.sortFields f.items := by
    rw [Json.sortFields_eq_map]
    exact (List.map_congr_left (Json.sortField_of_mem_sortFields f.items)).trans (List.map_id _)
  rw [toDict, toDict, Json.sortKeys_obj, Json.sortKeys_obj, Json.sortedFields, items_sorted, twice,
    Json.sortedFields]

theorem digest_sortKeys (v : Json) : digest v.sortKeys = digest v := by
  simp only [digest, canonical, Json.isFinite_sortKeys, Json.shortInts_sortKeys,
    Json.dumps_sortKeys]

theorem validateBudgets_sorted (budgets : Option JsonObject)
    (h : validateBudgets budgets = .ok ()) :
    validateBudgets (budgets.map JsonObject.sorted) = .ok () := by
  cases budgets with
  | none => exact h
  | some budgets =>
    refine check_of (List.all_eq_true.2 fun e mem => ?_)
    obtain ⟨⟨k, v⟩, inside, rfl⟩ := Json.mem_sortedFields.1 mem
    have bound := List.all_eq_true.1 (check_eq_ok_iff.1 h) _ inside
    cases v with
    | int n => exact bound
    | _ => cases bound

theorem Valid.sorted (h : f.Valid)
    (limits : ∃ n, rejectPrivateFields 0 0 f.payload.toJson.sortKeys = .ok n) :
    f.sorted.Valid where
  texts := h.texts
  known := h.known
  limits := limits
  shaped := h.shaped
  sealed := (digest_sortKeys _).trans h.sealed
  handles := h.handles
  handle := h.handle
  capabilities := h.capabilities
  truncations := h.truncations
  deletions := h.deletions
  bounds := validateBudgets_sorted _ h.bounds

end Fields

/-! ## Decoding -/

section

variable {record : JsonObject} {f : Fields}

theorem nodup_items (f : Fields) : (f.items.map Prod.fst).Nodup := by
  show [("schema" : PyStr), "projection_type", "producer", "producer_schema", "generation",
      "stable_handle", "payload",
    "payload_sha256", "schema_version", "projection_type_version", "producer_version",
      "repository_scope",
    "tenant_scope", "domain_scope", "source_generation", "projection_generation",
      "config_fingerprint",
    "toolchain_fingerprint", "parser_fingerprint", "stable_handles", "capabilities_required",
      "budgets",
    "truncation_reasons", "parent_generation", "base_generation", "delta_generation", "tombstones",
      "completeness",
    "fidelity", "observed_sequence", "conformance_digest"].Nodup
  decide +kernel

/-- The record holds the items of the fields. -/
def Holds (record : JsonObject) (f : Fields) : Prop := ∀ k, record.get? k = Dict.find f.items k

theorem Holds.get? (h : Holds record f) (i : ℕ) {k : PyStr} {v : Json}
    (at_ : f.items[i]? = some (k, v)) :
    record.get? k = some v := by
  rw [h k]
  exact Dict.lookup_of_mem (nodup_items f) (List.mem_of_getElem? at_)

theorem Holds.argument (h : Holds record f) (i : ℕ) {k : PyStr} {v missing : Json}
    (at_ : f.items[i]? = some (k, v)) : argument record k missing = v := by
  rw [Projection.argument, h.get? i at_, Option.getD_some]

theorem Holds.text (h : Holds record f) (valid : f.Valid) (i j : ℕ) {k s : PyStr} {missing : Json}
    (at_ : f.items[i]? = some (k, .str s)) (checked : f.texts[j]? = some (s, k)) :
    validateText (Projection.argument record k missing) k = .ok s := by
  rw [h.argument i at_]
  exact validateText_eq_ok_iff.2 ⟨rfl, valid.texts _ (List.mem_of_getElem? checked)⟩

theorem Holds.optionalText (h : Holds record f) (i : ℕ) {k s : PyStr} {missing : Json}
    (at_ : f.items[i]? = some (k, .str s)) :
    validateOptionalText (Projection.argument record k missing) k = .ok s := by
  rw [h.argument i at_]
  rfl

theorem Holds.generation (h : Holds record f) (i : ℕ) {k : PyStr} {s : Option PyStr}
    {missing : Json}
    (at_ : f.items[i]? = some (k, Json.optStr s)) :
    validateGeneration (Projection.argument record k missing) k = .ok s := by
  rw [h.argument i at_]
  cases s <;> rfl

theorem Holds.sequence (h : Holds record f) (i : ℕ) {k : PyStr} {l : List PyStr} {missing : Json}
    (at_ : f.items[i]? = some (k, Fields.listOf l)) (valid : Sequence l) :
    validateSequence (Projection.argument record k missing) k = .ok l := by
  rw [h.argument i at_]
  exact validateSequence_listOf_iff.2 ⟨rfl, valid⟩

theorem Holds.budgets (h : Holds record f) (valid : f.Valid) :
    budgetsOf record = .ok f.budgets := by
  have found := h.get? 21 rfl
  unfold budgetsOf
  cases e : f.budgets with
  | none =>
    rw [e] at found
    rw [found]
    rfl
  | some budgets =>
    rw [e] at found
    have object := JsonObject.object?_eq_some found
    have bounds := valid.bounds
    rw [e] at bounds
    rw [found, object]
    exact bind_ok.2 ⟨(), bounds, rfl⟩

/-- `create` builds the envelope whose items the record holds. -/
theorem create_eq_ok (h : Holds record f) (valid : f.postInit = .ok ()) :
    create record = .ok ⟨f, valid⟩ := by
  have v := Fields.postInit_eq_ok_iff.1 valid
  obtain ⟨n, limits⟩ := v.limits
  have payload : (record.object? "payload").getD .empty = f.payload := by
    rw [JsonObject.object?_eq_some (h.get? 6 rfl), Option.getD_some]
  have source : orGeneration f.generation (argument record "source_generation" .null) =
      argument record "source_generation" .null := by
    rw [h.argument 14 rfl]
    rfl
  have projection : orGeneration f.generation (argument record "projection_generation" .null) =
      argument record "projection_generation" .null := by
    rw [h.argument 15 rfl]
    rfl
  have handles : handlesOf f.stableHandle (argument record "stable_handles" (.arr [])) =
      .ok (f.stableHandles.map .str) := by
    rw [h.argument 19 rfl]
    rfl
  have made : ProjectionEnvelope.make f = .ok ⟨f, valid⟩ := by
    unfold ProjectionEnvelope.make
    split
    · rfl
    · rename_i e failed
      rw [valid] at failed
      cases failed
  unfold create
  refine bind_ok.2 ⟨_, h.text v 1 0 rfl rfl, ?_⟩
  refine bind_ok.2 ⟨(), check_of (decide_eq_true v.known), ?_⟩
  refine bind_ok.2 ⟨_, h.text v 8 5 rfl rfl, ?_⟩
  refine bind_ok.2 ⟨_, h.text v 9 6 rfl rfl, ?_⟩
  refine bind_ok.2 ⟨_, h.text v 2 1 rfl rfl, ?_⟩
  refine bind_ok.2 ⟨_, h.text v 3 2 rfl rfl, ?_⟩
  refine bind_ok.2 ⟨_, h.text v 4 3 rfl rfl, ?_⟩
  refine bind_ok.2 ⟨_, h.text v 5 4 rfl rfl, ?_⟩
  rw [payload]
  refine bind_ok.2 ⟨n, limits, ?_⟩
  refine bind_ok.2 ⟨_, h.text v 10 7 rfl rfl, ?_⟩
  refine bind_ok.2 ⟨_, h.text v 11 8 rfl rfl, ?_⟩
  refine bind_ok.2 ⟨_, h.text v 12 9 rfl rfl, ?_⟩
  refine bind_ok.2 ⟨_, h.text v 13 10 rfl rfl, ?_⟩
  refine bind_ok.2 ⟨_, h.text v 27 13 rfl rfl, ?_⟩
  refine bind_ok.2 ⟨_, h.text v 28 14 rfl rfl, ?_⟩
  rw [source]
  refine bind_ok.2 ⟨_, h.optionalText 14 rfl, ?_⟩
  rw [projection]
  refine bind_ok.2 ⟨_, h.optionalText 15 rfl, ?_⟩
  refine bind_ok.2 ⟨_, h.optionalText 16 rfl, ?_⟩
  refine bind_ok.2 ⟨_, h.optionalText 17 rfl, ?_⟩
  refine bind_ok.2 ⟨_, h.optionalText 18 rfl, ?_⟩
  refine bind_ok.2 ⟨_, h.optionalText 29 rfl, ?_⟩
  refine bind_ok.2 ⟨_, h.optionalText 30 rfl, ?_⟩
  refine bind_ok.2 ⟨_, h.generation 23 rfl, ?_⟩
  refine bind_ok.2 ⟨_, h.generation 24 rfl, ?_⟩
  refine bind_ok.2 ⟨_, h.generation 25 rfl, ?_⟩
  refine bind_ok.2 ⟨_, handles, ?_⟩
  refine bind_ok.2 ⟨_, validateSequence_listOf_iff.2 ⟨rfl, v.handles⟩, ?_⟩
  refine bind_ok.2 ⟨_, h.budgets v, ?_⟩
  refine bind_ok.2 ⟨_, h.sequence 20 rfl v.capabilities, ?_⟩
  refine bind_ok.2 ⟨_, h.sequence 22 rfl v.truncations, ?_⟩
  refine bind_ok.2 ⟨_, h.sequence 26 rfl v.deletions, ?_⟩
  exact bind_ok.2 ⟨_, v.sealed, made⟩

theorem decodeRecord_eq_ok (h : Holds record f) (valid : f.postInit = .ok ()) :
    decodeRecord record = .ok ⟨f, valid⟩ := by
  have schema : check (holds record "schema" SCHEMA) "projection_schema_unsupported" = .ok () := by
    refine check_of ?_
    rw [holds, h.get? 0 rfl]
    exact decide_eq_true rfl
  have expected : record.get? "payload_sha256" = some (.str f.payloadSha256) := h.get? 7 rfl
  have payload : argument record "payload" .null = .obj f.payload.fields := h.argument 6 rfl
  unfold decodeRecord
  refine bind_ok.2 ⟨(), schema, ?_⟩
  rw [expected]
  refine bind_ok.2 ⟨_, create_eq_ok h valid, ?_⟩
  rw [payload]
  refine bind_ok.2 ⟨(), rfl, ?_⟩
  exact bind_ok.2 ⟨(), check_of (decide_eq_true rfl), rfl⟩

end

/-! ## Reading a text back -/

theorem canonical_eq_ok_iff {v : Json} {raw : Bytes} :
    canonical v = .ok raw ↔ (v.isFinite = true ∧ v.shortInts = true) ∧
      (v.dumps true).length ≤ MAX_ENCODED_BYTES ∧ raw = PyStr.encodeAscii (v.dumps true) := by
  constructor
  · intro h
    obtain ⟨_, plain, h⟩ := bind_ok.1 h
    obtain ⟨_, short, h⟩ := bind_ok.1 h
    cases h
    exact ⟨Bool.and_eq_true_iff.1 (check_eq_ok_iff.1 plain),
      of_decide_eq_true (check_eq_ok_iff.1 short), rfl⟩
  · rintro ⟨plain, short, rfl⟩
    refine bind_ok.2 ⟨(), check_of (Bool.and_eq_true_iff.2 plain), ?_⟩
    exact bind_ok.2 ⟨(), check_of (decide_eq_true short), rfl⟩

theorem distinctKeys_listOf (l : List PyStr) : (Fields.listOf l).DistinctKeys := by
  refine Json.distinctItems_iff.2 fun v mem => ?_
  obtain ⟨s, -, rfl⟩ := List.mem_map.1 mem
  trivial

theorem distinctKeys_optStr (s : Option PyStr) : (Json.optStr s).DistinctKeys := by
  cases s <;> trivial

def Fields.record (f : Fields) : JsonObject where
  fields := f.items
  distinct := by
    refine ⟨nodup_items f, Json.distinctFields_iff.2 ?_⟩
    have budgets : ((f.budgets.map JsonObject.toJson).getD .null).DistinctKeys := by
      cases f.budgets with
      | none => trivial
      | some budgets => exact budgets.distinct
    simp only [Fields.items, List.forall_mem_cons, distinctKeys_listOf,
      distinctKeys_optStr, budgets,
      Json.DistinctKeys, List.not_mem_nil, false_implies, implies_true, and_true, true_and]
    exact f.payload.distinct

/-- What reading an envelope back takes of it. -/
structure Fields.Readable (f : Fields) : Prop where
  unpaired : f.toDict.Unpaired
  limits : ∃ n, rejectPrivateFields 0 0 f.payload.toJson.sortKeys = .ok n

/-- A readable envelope with sorted keys. -/
def ProjectionEnvelope.sorted (e : ProjectionEnvelope) (readable : e.Readable) :
    ProjectionEnvelope where
  toFields := e.toFields.sorted
  valid := Fields.postInit_eq_ok_iff.2
    ((Fields.postInit_eq_ok_iff.1 e.valid).sorted readable.limits)

theorem decode_canonical {e : ProjectionEnvelope} (readable : e.Readable) {raw : Bytes}
    (h : canonical e.toDict = .ok raw) : decode raw = .ok (e.sorted readable) := by
  have written := (canonical_eq_ok_iff.1 h).2.2
  have text := Json.decode_encodeAscii_dumps e.toDict [] fun _ mem => by cases mem
  rw [List.append_nil] at text
  have read : Json.loads (e.toDict.dumps true) = some e.record.sorted.toJson := by
    rw [JsonObject.toJson_sorted]
    exact Json.loads_dumps_ascii e.toDict e.record.distinct readable.unpaired
  have held : Holds e.record.sorted e.toFields.sorted := by
    intro k
    rw [JsonObject.get?_sorted, Fields.items_sorted, Json.find_sortFields]
    rfl
  unfold decode
  rw [written, text]
  dsimp only
  rw [JsonObject.loads?_eq_some read, read]
  exact decodeRecord_eq_ok held _

end Projection

end SimplicioFast
