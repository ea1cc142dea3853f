import SimplicioFast.Projection.Store

/-!
# Saved stores

`load` gives back the store that `save` has written when every record has the generation of the
store, when a store with a generation has a record, and when the records can be read back
(`load_save`).  The operations keep that in every run whose deltas leave no record of another
generation behind and do not empty the store (`always_persists`). A store that a delta has left
without records has a generation that no record shows, and `load` rejects its file.
-/

namespace SimplicioFast

namespace Projection

open Machine

namespace ProjectionStore

variable {s s' t : ProjectionStore} {e : ProjectionEnvelope} {d : Delta}

/-! ## What the operations do -/

theorem any_ne_eq_false_iff {α β : Type} [DecidableEq β] {o : Option α} {f g : α → β} :
    (o.any fun a => decide (f a ≠ g a)) = false ↔ ∀ a ∈ o, f a = g a := by
  cases o with
  | none => simp
  | some a => simp

/-- A record that `publish` accepts is put under its handle, and its generation is the one of the
store. -/
theorem publish_eq_ok (within : e.inScope s.repository = true)
    (generation : ∀ g ∈ s.generation, e.generation = g)
    (previous : ∀ p ∈ s.records.get? e.stableHandle, p.payloadSha256 = e.payloadSha256) :
    s.publish e =
      .ok { s with generation := some e.generation, records := s.records.put e within } := by
  have current : (s.generation.any fun g => decide (e.generation ≠ g)) = false :=
      any_ne_eq_false_iff.2 generation
  have same :
      ((s.records.get? e.stableHandle).any fun p => decide (p.payloadSha256 ≠ e.payloadSha256)) =
      false :=
    any_ne_eq_false_iff.2 previous
  rw [publish, dif_pos within, current, same]
  rfl

theorem eq_of_publish (h : s.publish e = .ok t) : ∃ within : e.inScope s.repository = true,
    (∀ g ∈ s.generation, e.generation = g) ∧
    t = { s with generation := some e.generation, records := s.records.put e within } := by
  unfold publish at h
  split_ifs at h with within stale conflict
  have generation := any_ne_eq_false_iff.1 (Bool.not_eq_true _ ▸ stale)
  exact ⟨within, generation, (Except.ok.inj h).symm⟩

/-- The last changed record under a handle. -/
def last? (changed : List ProjectionEnvelope) (k : PyStr) : Option ProjectionEnvelope :=
  changed.reverse.find? fun e => e.stableHandle = k

theorem foldlM_putChanged {changed : List ProjectionEnvelope}
    {records records' : Records s.repository}
    (h : changed.foldlM (s.putChanged d) records = .ok records') :
    (∀ e ∈ changed, e.generation = d.generation) ∧
    ∀ k, records'.get? k = (last? changed k).or (records.get? k) := by
  induction changed generalizing records with
  | nil =>
    cases h
    exact ⟨fun _ mem => (by cases mem), fun k => rfl⟩
  | cons e changed ih =>
    obtain ⟨next, first, rest⟩ := bind_ok.1 h
    obtain ⟨generations, kept⟩ := ih rest
    unfold putChanged at first
    split_ifs at first with stale within conflict
    cases first
    refine ⟨List.forall_mem_cons.2 ⟨not_not.1 stale, generations⟩, fun k => ?_⟩
    rw [kept, Records.get?_put, last?, last?, List.reverse_cons, List.find?_append, Option.or_assoc]
    congr 1
    by_cases here : k = e.stableHandle
    · simp [here]
    · have other : e.stableHandle ≠ k := fun same => here same.symm
      simp [here, other]

theorem mem_of_last? {changed : List ProjectionEnvelope} {k : PyStr}
    (h : last? changed k = some e) :
    e ∈ changed ∧ e.stableHandle = k :=
  ⟨List.mem_reverse.1 (List.mem_of_find?_eq_some h),
    of_decide_eq_true
      (List.find?_some (p := fun e : ProjectionEnvelope => decide (e.stableHandle = k)) h)⟩

theorem isSome_last? {changed : List ProjectionEnvelope} (mem : e ∈ changed) :
    ∃ e', last? changed e.stableHandle = some e' := by
  rw [← Option.isSome_iff_exists, last?, List.find?_isSome]
  exact ⟨e, List.mem_reverse.2 mem, decide_eq_true rfl⟩

theorem mem_changedHandles {k : PyStr} : k ∈ d.changedHandles ↔
    ∃ e ∈ d.changed, e.stableHandle = k := by
  rw [Delta.changedHandles, PyStr.mem_sortedSet, List.mem_map]

theorem nextRecords_spec {records : Records s.repository} (h : s.nextRecords d = .ok records) :
    (∀ e ∈ d.changed, e.generation = d.generation) ∧ (∀ k ∈ d.changedHandles, k ∉ d.deleted) ∧
    ∀ k, records.get? k = if k ∈ d.deleted then none else (last? d.changed k).or
        (s.records.get? k) := by
  obtain ⟨_, -, h⟩ := bind_ok.1 h
  obtain ⟨_, -, h⟩ := bind_ok.1 h
  obtain ⟨_, -, h⟩ := bind_ok.1 h
  obtain ⟨_, -, h⟩ := bind_ok.1 h
  obtain ⟨_, -, h⟩ := bind_ok.1 h
  obtain ⟨_, -, h⟩ := bind_ok.1 h
  obtain ⟨_, -, h⟩ := bind_ok.1 h
  obtain ⟨_, disjoint, h⟩ := bind_ok.1 h
  obtain ⟨put, changed, h⟩ := bind_ok.1 h
  cases h
  obtain ⟨generations, kept⟩ := foldlM_putChanged changed
  refine ⟨generations, fun k mem => ?_, fun k => ?_⟩
  · exact of_decide_eq_true (List.all_eq_true.1 (check_eq_ok_iff.1 disjoint) k mem)
  · rw [Records.get?_foldl_pop, kept]

/-! ## Loadable stores -/

/-- Every record has the generation of the store and can be read back, and a generation has a
record. -/
structure Loadable (s : ProjectionStore) : Prop where
  current : ∀ k e, s.records.get? k = some e → s.generation = some e.generation
  readable : ∀ k e, s.records.get? k = some e → e.Readable
  inhabited : s.generation ≠ none → ∃ k e, s.records.get? k = some e

/-- The branches of the operations that keep a store loadable. -/
def Keeps (s : ProjectionStore) : Op → Prop
  | .publish e => (∃ t, s.publish e = .ok t) → e.Readable
  | .applyDelta d => (∃ records, s.nextRecords d = .ok records) →
    (∀ k e, last? d.changed k = some e → e.Readable) ∧
    (∀ k e, s.records.get? k = some e → e.generation ≠ d.generation → k ∈ d.changedHandles ∨
    k ∈ d.deleted) ∧
    (d.changed ≠ [] ∨ ∃ k e, s.records.get? k = some e ∧ k ∉ d.deleted)

theorem loadable_new (repository : PyStr) (text : isText repository = true) :
    (new repository text).Loadable where
  current k e h := by cases h
  readable k e h := by cases h
  inhabited h := absurd rfl h

theorem Loadable.publish (h : s.Loadable) (published : s.publish e = .ok t)
    (readable : e.Readable) : t.Loadable := by
  obtain ⟨within, generation, rfl⟩ := eq_of_publish published
  refine ⟨fun k d held => ?_, fun k d held => ?_, fun _ => ⟨e.stableHandle, e, ?_⟩⟩
  · rw [Records.get?_put] at held
    split_ifs at held with here
    · cases held
      rfl
    · have current := h.current k d held
      exact congrArg some (generation _ current)
  · rw [Records.get?_put] at held
    split_ifs at held with here
    · cases held
      exact readable
    · exact h.readable k d held
  · rw [Records.get?_put, if_pos rfl]

theorem Loadable.nextRecords (h : s.Loadable) {records : Records s.repository}
    (accepted : s.nextRecords d = .ok records) (keeps : s.Keeps (.applyDelta d)) :
    Loadable { s with generation := some d.generation, records := records } := by
  obtain ⟨generations, disjoint, kept⟩ := nextRecords_spec accepted
  obtain ⟨readable, replaced, remains⟩ := keeps ⟨records, accepted⟩
  refine ⟨fun k e held => ?_, fun k e held => ?_, fun _ => ?_⟩
  · rw [kept] at held
    split_ifs at held with deleted
    rcases Option.or_eq_some_iff.1 held with last | ⟨none_, old⟩
    · exact congrArg some (generations e (mem_of_last? last).1).symm
    · by_contra stale
      have other : e.generation ≠ d.generation := fun same => stale (congrArg some same.symm)
      rcases replaced k e old other with changed | gone
      · obtain ⟨e', mem, rfl⟩ := mem_changedHandles.1 changed
        obtain ⟨e'', found⟩ := isSome_last? mem
        rw [none_] at found
        cases found
      · exact deleted gone
  · rw [kept] at held
    split_ifs at held with deleted
    rcases Option.or_eq_some_iff.1 held with last | ⟨-, old⟩
    · exact readable k e last
    · exact h.readable k e old
  · rcases remains with changed | ⟨k, e, held, stays⟩
    · obtain ⟨e, mem⟩ := List.exists_mem_of_ne_nil _ changed
      obtain ⟨e', last⟩ := isSome_last? mem
      refine ⟨e.stableHandle, e', ?_⟩
      rw [kept, if_neg (disjoint _ (mem_changedHandles.2 ⟨e, mem, rfl⟩)), last, Option.some_or]
    · refine ⟨k, (last? d.changed k).getD e, ?_⟩
      rw [kept, if_neg stays, held]
      cases last? d.changed k <;> rfl

theorem Loadable.step (h : s.Loadable) (op : Op) (keeps : s.Keeps op) : (s.step op).Loadable := by
  cases op with
  | publish e =>
    cases published : s.publish e with
    | error _ =>
      rw [ProjectionStore.step, published]
      exact h
    | ok t =>
      rw [ProjectionStore.step, published]
      exact h.publish published (keeps ⟨t, published⟩)
  | applyDelta d =>
    cases accepted : s.nextRecords d with
    | error _ =>
      rw [ProjectionStore.step, applyDelta, accepted]
      exact h
    | ok records =>
      rw [ProjectionStore.step, applyDelta, accepted]
      exact h.nextRecords accepted keeps

theorem repository_step (s : ProjectionStore) (op : Op) :
    (s.step op).repository = s.repository := by
  cases op with
  | publish e =>
    cases published : s.publish e with
    | error _ => rw [ProjectionStore.step, published]; rfl
    | ok t =>
      obtain ⟨_, _, rfl⟩ := eq_of_publish published
      rw [ProjectionStore.step, published]
      rfl
  | applyDelta d =>
    cases accepted : s.nextRecords d with
    | error _ => rw [ProjectionStore.step, applyDelta, accepted]
    | ok records => rw [ProjectionStore.step, applyDelta, accepted]

/-! ## Loading -/

theorem canonical_sortKeys (v : Json) : canonical v.sortKeys = canonical v := by
  simp only [canonical, Json.isFinite_sortKeys, Json.shortInts_sortKeys, Json.dumps_sortKeys]

theorem inScope_sorted {f : Fields} {repository : PyStr} (h : f.inScope repository = true) :
    f.sorted.inScope repository = true := by
  have found :
      f.sorted.payload.get? "repository" = (f.payload.get? "repository").map Json.sortKeys :=
    JsonObject.get?_sorted f.payload _
  unfold Fields.inScope at h ⊢
  rw [found]
  cases e : f.payload.get? "repository" with
  | none => rfl
  | some v =>
    rw [e] at h
    cases v with
    | null => rfl
    | str s => exact h
    | _ => cases h

theorem loadRecord_sortKeys (readable : e.Readable) {raw : Bytes}
    (h : canonical e.toDict = .ok raw) :
    t.loadRecord e.toDict.sortKeys = t.publish (e.sorted readable) := by
  have text : canonical (.obj (Json.sortedFields e.items)) = .ok raw :=
      (canonical_sortKeys e.toDict).trans h
  have decoded := decode_canonical readable h
  show (canonical (.obj (Json.sortedFields e.items)) >>= fun raw => decode raw >>= fun e =>
      t.publish e) = _
  rw [text]
  show (decode raw >>= fun e => t.publish e) = _
  rw [decoded]
  rfl

/-- The record of an envelope, with sorted keys. -/
def view (e : ProjectionEnvelope) : Json := e.toDict.sortKeys

theorem view_sorted (readable : e.Readable) : view (e.sorted readable) = view e :=
    Fields.toDict_sorted e.toFields

/-- The records under the given handles. -/
def recordsOf (s : ProjectionStore) (ks : List PyStr) : List Json :=
  ks.filterMap fun k => (s.records.get? k).map fun e => e.toDict

theorem loadRecord_spec (sound : s.Loadable) {k : PyStr} (here : s.records.get? k = some e)
    {raw : Bytes}
    (text : canonical e.toDict = .ok raw) (repository : t.repository = s.repository)
    (fresh : t.records.get? k = none) (generation : ∀ g ∈ t.generation, s.generation = some g) :
    ∃ t', t.loadRecord e.toDict.sortKeys = .ok t' ∧ t'.repository = s.repository ∧
      t'.generation = s.generation ∧ (t'.records.get? k).map view = some (view e) ∧
      ∀ l, l ≠ k → t'.records.get? l = t.records.get? l := by
  have handle : (e.sorted (sound.readable k e here)).stableHandle = k := s.records.keyed k e here
  have current := sound.current k e here
  have within : (e.sorted (sound.readable k e here)).inScope t.repository = true := by
    rw [repository]
    exact inScope_sorted (s.records.within k e here)
  have published :=
      publish_eq_ok within (fun g mem => Option.some.inj (current.symm.trans (generation g mem)))
    (fun p mem => by
      rw [handle, fresh] at mem
      cases mem)
  refine ⟨_, (loadRecord_sortKeys _ text).trans published, repository, current.symm, ?_,
    fun l other => ?_⟩
  · show ((t.records.put _ within).get? k).map view = _
    rw [Records.get?_put, if_pos handle.symm, Option.map_some, view_sorted]
  · show (t.records.put _ within).get? l = _
    rw [Records.get?_put, handle, if_neg other]

theorem foldlM_loadRecord (sound : s.Loadable) (ks : List PyStr) (nodup : ks.Nodup)
    (held : ∀ k ∈ ks, ∃ e, s.records.get? k = some e)
    (written : ∀ k ∈ ks, ∀ e, s.records.get? k = some e → ∃ raw, canonical e.toDict = .ok raw)
    (repository : t.repository = s.repository) (fresh : ∀ k ∈ ks, t.records.get? k = none)
    (generation : ∀ g ∈ t.generation, s.generation = some g) :
    ∃ t', (Json.sortItems (s.recordsOf ks)).foldlM loadRecord t = .ok t' ∧
      t'.repository = s.repository ∧
        t'.generation = (if ks = [] then t.generation else s.generation) ∧
      ∀ k, (t'.records.get? k).map view =
        if k ∈ ks then (s.records.get? k).map view else (t.records.get? k).map view := by
  induction ks generalizing t with
  | nil => exact ⟨t, rfl, repository, rfl, fun k => rfl⟩
  | cons k ks ih =>
    obtain ⟨here, held⟩ := List.forall_mem_cons.1 held
    obtain ⟨e, here⟩ := here
    obtain ⟨text, written⟩ := List.forall_mem_cons.1 written
    obtain ⟨raw, text⟩ := text e here
    obtain ⟨absent, fresh⟩ := List.forall_mem_cons.1 fresh
    obtain ⟨new, nodup⟩ := List.nodup_cons.1 nodup
    obtain ⟨u, first, repository, current, added, others⟩ :=
      loadRecord_spec sound here text repository absent generation
    have ne {l : PyStr} (mem : l ∈ ks) : l ≠ k := fun same => new (same ▸ mem)
    obtain ⟨t', loaded, repository, generation', records'⟩ := ih nodup held written repository
      (fun l mem => (others l (ne mem)).trans (fresh l mem)) (fun g mem => current.symm.trans mem)
    refine ⟨t', ?_, repository, ?_, fun l => ?_⟩
    · have items : Json.sortItems (s.recordsOf (k :: ks)) =
          e.toDict.sortKeys :: Json.sortItems (s.recordsOf ks) := by
        simp only [recordsOf, List.filterMap_cons, here, Option.map_some, Json.sortItems]
      rw [items, List.foldlM_cons, first]
      exact loaded
    · rw [generation', current, ite_self, if_neg (List.cons_ne_nil k ks)]
    · rw [records' l]
      by_cases same : l = k
      · rw [same, if_neg new, if_pos List.mem_cons_self, added, here]
        rfl
      · by_cases inside : l ∈ ks
        · rw [if_pos inside, if_pos (List.mem_cons_of_mem k inside)]
        · rw [if_neg inside, if_neg fun mem => (List.mem_cons.1 mem).elim same inside,
            others l same]

/-! ## The same store -/

/-- The stores have the same generation, the same records up to the order of keys, and the same
digests. -/
structure Same (s t : ProjectionStore) : Prop where
  repository : t.repository = s.repository
  generation : t.generation = s.generation
  records : ∀ k, (t.records.get? k).map view = (s.records.get? k).map view
  projectionDigest : t.projectionDigest = s.projectionDigest
  storeSha256 : t.storeSha256 = s.storeSha256

/-- The handles of the records, in order. -/
def handles (s : ProjectionStore) : List PyStr := s.records.dict.keys.insertionSort (· ≤ ·)

theorem snapshot_eq (s : ProjectionStore) : s.snapshot = s.recordsOf s.handles := rfl

theorem mem_handles {k : PyStr} : k ∈ s.handles ↔ ∃ e, s.records.get? k = some e :=
  (List.mem_insertionSort _).trans (Dict.mem_keys_iff _ _)

theorem nodup_handles (s : ProjectionStore) : s.handles.Nodup :=
  (List.perm_insertionSort _ _).nodup_iff.2 s.records.dict.nodup

theorem handles_eq (h : ∀ k, (t.records.get? k).map view = (s.records.get? k).map view) :
    t.handles = s.handles := by
  have perm : t.handles.Perm s.handles := by
    refine (List.perm_ext_iff_of_nodup t.nodup_handles s.nodup_handles).2 fun k => ?_
    rw [mem_handles, mem_handles, ← Option.isSome_iff_exists, ← Option.isSome_iff_exists,
      ← Option.isSome_map (f := view), h k, Option.isSome_map]
  exact perm.eq_of_pairwise' (List.pairwise_insertionSort _ _) (List.pairwise_insertionSort _ _)

theorem sortItems_recordsOf (s : ProjectionStore) (ks : List PyStr) :
    Json.sortItems (s.recordsOf ks) = ks.filterMap fun k => (s.records.get? k).map view := by
  rw [Json.sortItems_eq_map, recordsOf, List.map_filterMap]
  congr 1
  funext k
  rw [Option.map_map]
  rfl

theorem sortItems_snapshot (h : ∀ k, (t.records.get? k).map view = (s.records.get? k).map view) :
    Json.sortItems t.snapshot = Json.sortItems s.snapshot := by
  rw [snapshot_eq, snapshot_eq, sortItems_recordsOf, sortItems_recordsOf, handles_eq h]
  congr 1
  funext k
  exact h k

theorem digest_congr {v w : Json} (h : v.sortKeys = w.sortKeys) : digest v = digest w := by
  rw [← Fields.digest_sortKeys v, h, Fields.digest_sortKeys]

theorem Same.of_records (repository : t.repository = s.repository)
    (generation : t.generation = s.generation)
    (records : ∀ k, (t.records.get? k).map view = (s.records.get? k).map view) : s.Same t where
  repository := repository
  generation := generation
  records := records
  projectionDigest := by
    refine digest_congr ?_
    rw [Json.sortKeys, Json.sortKeys, sortItems_snapshot records]
  storeSha256 := by
    refine digest_congr ?_
    rw [body, body, repository, generation, Json.sortKeys_obj, Json.sortKeys_obj, Json.sortedFields,
      Json.sortedFields]
    simp only [Json.sortFields, Json.sortField, Json.sortKeys, sortItems_snapshot records]

/-! ## Loading what has been saved -/

theorem exists_of_mem_recordsOf {ks : List PyStr} {v : Json} (mem : v ∈ s.recordsOf ks) :
    ∃ k ∈ ks, ∃ e, s.records.get? k = some e ∧ v = e.toDict := by
  obtain ⟨k, inside, found⟩ := List.mem_filterMap.1 mem
  obtain ⟨e, held, rfl⟩ := Option.map_eq_some_iff.1 found
  exact ⟨k, inside, e, held, rfl⟩

def bodyObject (s : ProjectionStore) : JsonObject where
  fields := [("schema", .str STORE_SCHEMA), ("repository", .str s.repository),
    ("generation", Json.optStr s.generation), ("records", .arr s.snapshot)]
  distinct := by
    have records : (Json.arr s.snapshot).DistinctKeys := by
      refine Json.distinctItems_iff.2 fun v mem => ?_
      obtain ⟨k, -, e, -, rfl⟩ := exists_of_mem_recordsOf mem
      exact e.record.distinct
    refine ⟨?_, trivial, trivial, distinctKeys_optStr _, records, trivial⟩
    show [("schema" : PyStr), "repository", "generation", "records"].Nodup
    decide

def documentObject (s : ProjectionStore) (storeSha256 : PyStr) : JsonObject where
  fields := [("body", s.body), ("store_sha256", .str storeSha256)]
  distinct := by
    refine ⟨?_, s.bodyObject.distinct, trivial, trivial⟩
    show [("body" : PyStr), "store_sha256"].Nodup
    decide

theorem unpaired_ofString (s : String) : (s : PyStr).Unpaired := PyStr.unpaired_ofChars _

theorem Loadable.unpaired (sound : s.Loadable) (repository : s.repository.Unpaired) :
    s.body.Unpaired := by
  have records : (Json.arr s.snapshot).Unpaired := by
    refine Json.itemsUnpaired_iff.2 fun v mem => ?_
    obtain ⟨k, -, e, held, rfl⟩ := exists_of_mem_recordsOf mem
    exact (sound.readable k e held).unpaired
  have generation : (Json.optStr s.generation).Unpaired := by
    cases g : s.generation with
    | none => trivial
    | some generation =>
      obtain ⟨k, e, held⟩ := sound.inhabited (by rw [g]; exact Option.some_ne_none _)
      obtain rfl := Option.some.inj (g.symm.trans (sound.current k e held))
      have items := Json.fieldsUnpaired_iff.1 (sound.readable k e held).unpaired
      exact (items (("generation" : PyStr), .str e.generation)
        (List.mem_of_getElem? (i := 4) rfl)).2
  exact ⟨⟨unpaired_ofString _, unpaired_ofString _⟩, ⟨unpaired_ofString _, repository⟩,
    ⟨unpaired_ofString _, generation⟩, ⟨unpaired_ofString _, records⟩, trivial⟩

theorem canonical_record {raw : Bytes} (h : canonical s.body = .ok raw) {k : PyStr}
    (held : s.records.get? k = some e) : ∃ raw, canonical e.toDict = .ok raw := by
  obtain ⟨⟨finite, ints⟩, short, -⟩ := canonical_eq_ok_iff.1 h
  have mem : e.toDict ∈ s.snapshot := by
    refine List.mem_filterMap.2 ⟨k, mem_handles.2 ⟨e, held⟩, ?_⟩
    rw [held]
    rfl
  have records : ((("records" : PyStr), Json.arr s.snapshot)) ∈ s.bodyObject.fields :=
    List.mem_of_getElem? (i := 3) rfl
  have list := Json.itemsFinite_iff.1 (Json.fieldsFinite_iff.1 finite _ records) _ mem
  have list' := Json.itemsShort_iff.1 (Json.fieldsShort_iff.1 ints _ records) _ mem
  refine ⟨_, canonical_eq_ok_iff.2 ⟨⟨list, list'⟩, ?_, rfl⟩⟩
  exact ((Json.length_dumps_le_of_mem true mem).trans
    (Json.length_dumps_le_of_mem_fields true records)).trans short

theorem holds_of_get? {m : JsonObject} {k text : PyStr} (h : m.get? k = some (.str text)) :
    Projection.holds m.sorted k text = true := by
  rw [Projection.holds, JsonObject.get?_sorted, h]
  exact decide_eq_true rfl

theorem loadDocument_sorted (sound : s.Loadable) {storeSha256 : PyStr} {raw : Bytes}
    (sealed : s.storeSha256 = .ok storeSha256) (text : canonical s.body = .ok raw) :
    ∃ t, loadDocument (s.documentObject storeSha256).sorted s.repository = .ok t ∧ s.Same t := by
  have body : (s.documentObject storeSha256).sorted.object? "body" = some s.bodyObject.sorted := by
    refine JsonObject.object?_eq_some ?_
    rw [JsonObject.get?_sorted]
    rfl
  have digest : digest s.bodyObject.sorted.toJson = .ok storeSha256 := by
    rw [JsonObject.toJson_sorted, Fields.digest_sortKeys]
    exact sealed
  have records :
      s.bodyObject.sorted.get? "records" =
      some (.arr (Json.sortItems (s.recordsOf s.handles))) := by
    rw [JsonObject.get?_sorted]
    rfl
  have generation : s.bodyObject.sorted.get? "generation" = some (Json.optStr s.generation) := by
    rw [JsonObject.get?_sorted, ← Fields.sortKeys_optStr]
    rfl
  obtain ⟨t, loaded, repository, generation', records'⟩ :=
      foldlM_loadRecord sound s.handles s.nodup_handles
    (fun k mem => mem_handles.1 mem) (fun k _ e held => canonical_record text held)
    (t := new s.repository s.isText_repository) rfl (fun _ _ => rfl) (fun _ mem => by cases mem)
  have current : t.generation = s.generation := by
    rw [generation']
    by_cases none_ : s.handles = []
    · rw [if_pos none_]
      by_contra some_
      obtain ⟨k, e, held⟩ := sound.inhabited fun g => some_ g.symm
      have mem := mem_handles.2 ⟨e, held⟩
      rw [none_] at mem
      cases mem
    · rw [if_neg none_]
  refine ⟨t, ?_, .of_records repository current fun k => ?_⟩
  · rw [loadDocument, body]
    refine bind_ok.2 ⟨(), check_of (holds_of_get? rfl), ?_⟩
    refine bind_ok.2 ⟨(), check_of (holds_of_get? rfl), ?_⟩
    refine bind_ok.2 ⟨_, digest, ?_⟩
    refine bind_ok.2 ⟨(), check_of (holds_of_get? rfl), ?_⟩
    rw [records]
    dsimp only
    rw [dif_pos s.isText_repository]
    refine bind_ok.2 ⟨t, loaded, ?_⟩
    rw [generation, current]
    refine bind_ok.2 ⟨(), check_of ?_, rfl⟩
    cases s.generation with
    | none => rfl
    | some g => exact decide_eq_true rfl
  · rw [records' k]
    by_cases mem : k ∈ s.handles
    · rw [if_pos mem]
    · rw [if_neg mem]
      cases held : s.records.get? k with
      | none => rfl
      | some e => exact absurd (mem_handles.2 ⟨e, held⟩) mem

theorem load_save (sound : s.Loadable) (unpaired : s.repository.Unpaired) {raw : Bytes}
    (h : s.save = .ok raw) :
    ∃ t, load raw s.repository = .ok t ∧ s.Same t := by
  obtain ⟨storeSha256, sealed, h⟩ := bind_ok.1 h
  obtain ⟨encoded, written, h⟩ := bind_ok.1 h
  obtain ⟨text, canonical_, digested⟩ := bind_ok.1 sealed
  have ascii := (canonical_eq_ok_iff.1 written).2.2
  have file :
      raw = PyStr.encodeAscii (Json.dumps true (s.documentObject storeSha256).toJson ++
      [.scalar '\n']) := by
    rw [← Except.ok.inj h, ascii, PyStr.encodeAscii, PyStr.encodeAscii, List.map_append]
    rfl
  have decoded := Json.decode_encodeAscii_dumps (s.documentObject storeSha256).toJson [.scalar '\n']
      (by decide)
  have sha : storeSha256.Unpaired := by
    cases digested
    rw [← Json.ofChars_append]
    exact PyStr.unpaired_ofChars _
  have pairs : (s.documentObject storeSha256).toJson.Unpaired :=
    ⟨⟨unpaired_ofString _, sound.unpaired unpaired⟩, ⟨unpaired_ofString _, sha⟩, trivial⟩
  have read : Json.loads (Json.dumps true (s.documentObject storeSha256).toJson ++ [.scalar '\n']) =
      some (s.documentObject storeSha256).sorted.toJson :=
    Json.loads_dumps_obj (s.documentObject storeSha256).distinct (.inr pairs) (by decide)
  obtain ⟨t, loaded, same⟩ := loadDocument_sorted sound sealed canonical_
  refine ⟨t, ?_, same⟩
  rw [load, file, decoded]
  rw [Option.bind_some, JsonObject.loads?_eq_some read]
  exact loaded

/-! ## Runs -/

/-- Whatever `save` writes is loaded as the same store. -/
def Persists (s : ProjectionStore) : Prop :=
  ∀ raw, s.save = .ok raw → ∃ t, load raw s.repository = .ok t ∧ s.Same t

/-- From the empty store of a repository whose name holds no surrogate pair: when every accepted
step publishes readable envelopes, leaves no record of another generation behind and does not leave
the store without records, every store reached is loaded again from the file that `save` writes. -/
theorem always_persists {repository : PyStr} (text : isText repository = true)
    (unpaired : repository.Unpaired)
    {ops : List Op} (keeps : Along step Keeps (new repository text) ops) :
    Always step Persists (new repository text) ops := by
  rintro before after rfl raw saved
  have reached : (run step (new repository text) before).Loadable ∧
      (run step (new repository text) before).repository = repository :=
    Along.run_invariant (I := fun s : ProjectionStore => s.Loadable ∧ s.repository = repository)
      (along_append.1 keeps).1 ⟨loadable_new repository text, rfl⟩
      fun s op h k => ⟨h.1.step op k, (repository_step s op).trans h.2⟩
  refine load_save reached.1 ?_ saved
  rw [reached.2]
  exact unpaired

def emptyDelta : Delta := { generation := "g" }

def smallPayload : JsonObject := .single "a" (.int 1) trivial

def smallFields : Fields where
  projectionType := "code"
  producer := "p"
  producerSchema := "s"
  generation := "g"
  stableHandle := "h"
  payload := smallPayload
  payloadSha256 := "sha256:015abd7f5cc57a2dd94b7590f04ad8084273905ee33ec5cebeae62276a97f862"
  sourceGeneration := "g"
  projectionGeneration := "g"
  stableHandles := ["h"]

def smallEnvelope : ProjectionEnvelope := ⟨smallFields, by decide +kernel⟩

theorem readable_smallEnvelope : smallEnvelope.Readable where
  unpaired := by
    refine Json.fieldsUnpaired_iff.2 ?_
    simp only [Fields.items, List.forall_mem_cons, List.not_mem_nil, false_implies, implies_true,
      and_true]
    repeat' apply And.intro
    all_goals first
      | exact unpaired_ofString _
      | exact List.IsChain.nil
      | trivial
  limits := ⟨1, by decide +kernel⟩

/-- A store with one published envelope. -/
theorem always_persists_smallEnvelope : Always step Persists
    (new "r" (by decide)) [.publish smallEnvelope] :=
  always_persists (by decide) (unpaired_ofString _) ⟨fun _ => readable_smallEnvelope, trivial⟩

/-- After an empty delta on the empty store, `load` rejects what `save` writes. -/
theorem not_always_persists_emptyDelta : ¬ Always step Persists
    (new "r" (by decide)) [.applyDelta emptyDelta] := by
  intro always
  have persists := always [.applyDelta emptyDelta] [] rfl
  have rejected : (match (step (new "r" (by decide)) (.applyDelta emptyDelta)).save with
      | .ok raw => (load raw "r").toOption.isNone
      | .error _ => false) = true := by
    decide +kernel
  cases saved : (step (new "r" (by decide)) (.applyDelta emptyDelta)).save with
  | error _ =>
    rw [saved] at rejected
    cases rejected
  | ok raw =>
    obtain ⟨t, loaded, -⟩ := persists raw saved
    have repository := repository_step (new "r" (by decide)) (.applyDelta emptyDelta)
    rw [run_cons, run_nil, repository] at loaded
    rw [saved] at rejected
    have failed : (load raw "r").toOption.isNone = true := rejected
    rw [show load raw "r" = .ok t from loaded] at failed
    cases failed

end ProjectionStore

end Projection

end SimplicioFast
