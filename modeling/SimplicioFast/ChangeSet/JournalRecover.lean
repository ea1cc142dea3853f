import SimplicioFast.ChangeSet.JournalFile
import SimplicioFast.ChangeSet.Materialize

/-!
# Recovery of the file of the change-set journal

The file that a run of `append` leaves is the header and the frames of the records that it returned (`run_inv`).  After
a crash a prefix of it is left.  Where the header is complete, `recover` keeps the records whose frames are complete,
provided that their texts are stable: the object that is read of a text has the same text (`prefix_recovers_iff`).
-/

namespace SimplicioFast

open Machine

namespace JournalFile

open ChangeSet

variable {codecs : Codecs} {a : JournalAuthority} {r : NewRecord} {prev rs kept : List NewRecord} {events : List Json}
  {id binary state : PyStr} {evidence : JsonObject}

/-! ## The records of a run -/

/-- The object that is read of the text of a record. -/
def NewRecord.reread (r : NewRecord) : Json := Json.reread (Json.sortKeys r.toJson)

/-- The hash of the last of the records. -/
def lastOf (rs : List NewRecord) : PyStr :=
  match rs.getLast? with
  | some r => r.recordHash
  | none => ZERO_HASH

/-- The record was built behind the given ones, and it fits into a frame. -/
def Follows (a : JournalAuthority) (prev : List NewRecord) (r : NewRecord) : Prop :=
  ∃ events id binary state evidence, events.length = prev.length ∧ lastHash events = lastOf prev ∧
    sealRecord (lastOf prev) (material a events id binary state evidence) = .ok r ∧ r.payload.length < 2 ^ 32

/-- Every record was built behind those before it. -/
def Chain (a : JournalAuthority) (rs : List NewRecord) : Prop :=
  ∀ prev r rest, rs = prev ++ r :: rest → Follows a prev r

theorem Chain.nil : Chain a [] := by
  intro prev r rest e
  simp at e

theorem Chain.snoc (chain : Chain a rs) (next : Follows a rs r) : Chain a (rs ++ [r]) := by
  intro prev q rest e
  rcases List.eq_nil_or_concat rest with rfl | ⟨init, last, rfl⟩
  · obtain ⟨rfl, tail⟩ := List.append_inj' e rfl
    obtain rfl := (List.cons.inj tail).1
    exact next
  · rw [List.concat_eq_append, ← List.cons_append, ← List.append_assoc] at e
    exact chain prev q init (List.append_inj' e rfl).1

theorem Chain.of_isPrefix (chain : Chain a rs) (first : kept <+: rs) : Chain a kept := by
  obtain ⟨back, rfl⟩ := first
  intro prev r rest e
  exact chain prev r (rest ++ back) (by rw [e, List.append_assoc, List.cons_append])

/-! ### The entries of a record -/

def keys : List PyStr :=
  ["schema", "sequence", "changeset_id", "binary_sha256", "worktree_id", "lease_id", "fencing_token", "state",
    "prev_hash", "evidence", "record_hash"]

theorem nodup_keys : keys.Nodup := by decide

theorem unpaired_keys : ∀ k ∈ keys, k.Unpaired := by
  intro k mem
  simp only [keys, List.mem_cons, List.not_mem_nil, or_false] at mem
  rcases mem with rfl | rfl | rfl | rfl | rfl | rfl | rfl | rfl | rfl | rfl | rfl <;> exact PyStr.unpaired_ofChars _

def NewRecord.fields (r : NewRecord) : List (PyStr × Json) :=
  r.material ++ [(("record_hash" : PyStr), .str r.recordHash)]

theorem unpaired_lastOf (rs : List NewRecord) : (lastOf rs).Unpaired := by
  unfold lastOf
  split
  · exact PyStr.unpaired_ofChars _
  · exact PyStr.unpaired_ofChars _

theorem sealRecord_eq_ok {previous : PyStr} {fs : List (PyStr × Json)} (h : sealRecord previous fs = .ok r) :
    r.material = fs ∧ (Json.obj fs).isFinite = true ∧
      r.hash = Sha256.digest (PyStr.encodeAscii previous ++ PyStr.encodeAscii ((Json.obj fs).dumps true)) := by
  obtain ⟨text, canonical, h⟩ := bind_ok.1 h
  cases h
  unfold ChangeSet.canonical at canonical
  split_ifs at canonical with finite
  cases canonical
  exact ⟨rfl, finite, rfl⟩

/-- What is known of a record of a chain. -/
structure Built (a : JournalAuthority) (prev : List NewRecord) (r : NewRecord) (evidence : JsonObject) : Prop where
  keys : r.fields.map Prod.fst = JournalFile.keys
  flat : ∀ f ∈ r.fields, f.2.IsFlat ∨ f = (("evidence" : PyStr), evidence.toJson)
  worktreeId : Dict.find r.fields "worktree_id" = some (.str a.worktreeId)
  leaseId : Dict.find r.fields "lease_id" = some (.str a.leaseId)
  fencingToken : Dict.find r.fields "fencing_token" = some (.str a.fencingToken)
  prevHash : Dict.find r.fields "prev_hash" = some (.str (lastOf prev))
  recordHash : Dict.find r.fields "record_hash" = some (.str r.recordHash)
  finite : (Json.obj r.material).isFinite = true
  hash : r.hash = Sha256.digest (PyStr.encodeAscii (lastOf prev) ++
    PyStr.encodeAscii ((Json.obj r.material).dumps true))
  around : ∃ front, r.fields = front ++ (("evidence" : PyStr), evidence.toJson) ::
    [(("record_hash" : PyStr), .str r.recordHash)]

theorem built_of_sealRecord (last : lastHash events = lastOf prev)
    (sealed : sealRecord (lastOf prev) (material a events id binary state evidence) = .ok r) :
    Built a prev r evidence := by
  obtain ⟨entries, finite, hash⟩ := sealRecord_eq_ok sealed
  have fields : r.fields = material a events id binary state evidence ++
      [(("record_hash" : PyStr), .str r.recordHash)] := by rw [NewRecord.fields, entries]
  refine ⟨?_, ?_, ?_, ?_, ?_, ?_, ?_, ?_, ?_, ?_⟩
  · rw [fields]
    rfl
  · rw [fields]
    simp only [material, List.cons_append, List.nil_append, List.forall_mem_cons, List.not_mem_nil, false_implies,
      implies_true, and_true]
    exact ⟨.inl trivial, .inl trivial, .inl trivial, .inl trivial, .inl trivial, .inl trivial, .inl trivial,
      .inl trivial, .inl trivial, .inr trivial, .inl trivial⟩
  · rw [fields]
    rfl
  · rw [fields]
    rfl
  · rw [fields]
    rfl
  · rw [fields, ← last]
    rfl
  · rw [fields]
    rfl
  · rw [entries]
    exact finite
  · rw [entries]
    exact hash
  · exact ⟨(material a events id binary state evidence).dropLast, fields.trans rfl⟩

theorem Follows.built (h : Follows a prev r) : ∃ evidence, Built a prev r evidence ∧ r.payload.length < 2 ^ 32 := by
  obtain ⟨events, id, binary, state, evidence, -, last, sealed, small⟩ := h
  exact ⟨evidence, built_of_sealRecord last sealed, small⟩

/-! ## Reading a record -/

variable {text : PyStr}

/-- No text of the authority holds a surrogate pair. -/
structure Plain (a : JournalAuthority) : Prop where
  worktreeId : a.worktreeId.Unpaired
  leaseId : a.leaseId.Unpaired
  fencingToken : a.fencingToken.Unpaired

namespace Built

variable (built : Built a prev r evidence)

include built

theorem exists_reread : ∃ gs, r.reread = .obj gs ∧ gs.Perm (r.fields.map Json.readField) :=
  Json.exists_reread_obj (built.keys ▸ nodup_keys) (built.keys ▸ unpaired_keys)

theorem get?_reread {k : PyStr} {v : Json} (entry : Dict.find r.fields k = some v) :
    r.reread.get? k = some (Json.reread (Json.sortKeys v)) := by
  obtain ⟨gs, read, perm⟩ := built.exists_reread
  have nodup : ((r.fields.map Json.readField).map Prod.fst).Nodup := by
    rw [Json.map_fst_readField, built.keys]
    exact nodup_keys
  rw [read]
  show Dict.find gs k = _
  rw [Dict.find, Dict.lookup_perm nodup perm.symm k]
  show Dict.find (r.fields.map Json.readField) k = _
  rw [Json.find_readField, entry, Option.map_some]

theorem entryIs_reread {k : PyStr} (entry : Dict.find r.fields k = some (.str text)) :
    entryIs r.reread k text = true ↔ text.Unpaired := by
  have value : Json.reread (Json.sortKeys (.str text)) = .str text.joinPairs := rfl
  have same : Json.pyEq (.str text.joinPairs) (.str text) = decide (text.joinPairs = text) := rfl
  rw [entryIs, built.get?_reread entry, value]
  dsimp only
  rw [same, decide_eq_true_eq]
  exact PyStr.joinPairs_eq_self_iff

theorem lastHash_reread (events : List Json) : lastHash (events ++ [r.reread]) = r.recordHash := by
  rw [lastHash, List.getLast?_concat]
  dsimp only
  rw [built.get?_reread built.recordHash]
  exact PyStr.joinPairs_of_unpaired (PyStr.unpaired_ofChars _)

theorem stable_iff : r.toJson.Stable ↔ evidence.toJson.Stable := by
  obtain ⟨front, split⟩ := built.around
  obtain ⟨gs, read, perm⟩ := built.exists_reread
  obtain ⟨start, stop, around⟩ := Json.dumps_around true "evidence" front
    [(("record_hash" : PyStr), .str r.recordHash)]
  have written : r.toJson.dumps true = start ++ (evidence.toJson.dumps true ++ stop) := by
    show Json.dumps true (.obj r.fields) = _
    rw [split]
    exact around _
  have nodup : (gs.map Prod.fst).Nodup := by
    rw [(perm.map Prod.fst).nodup_iff, Json.map_fst_readField, built.keys]
    exact nodup_keys
  have again : r.reread.dumps true =
      start ++ ((Json.reread (Json.sortKeys evidence.toJson)).dumps true ++ stop) := by
    rw [read, Json.dumps_perm nodup perm, split]
    refine Eq.trans (Json.dumps_congr ?_) (around (Json.reread (Json.sortKeys evidence.toJson)))
    have flat : ∀ f ∈ front, f.2.IsFlat := by
      intro f mem
      refine (built.flat f (by rw [split]; exact List.mem_append_left _ mem)).resolve_right ?_
      rintro rfl
      have keys := built.keys
      rw [split, List.map_append] at keys
      have unique := nodup_keys
      rw [← keys, List.nodup_append] at unique
      exact unique.2.2 _ (List.mem_map_of_mem mem) _ List.mem_cons_self rfl
    rw [List.map_append]
    refine List.rel_append (?_ : List.Forall₂ _ _ _) (.cons ⟨rfl, rfl⟩ (.cons ⟨rfl, ?_⟩ .nil))
    · rw [List.forall₂_map_left_iff, List.forall₂_same]
      exact fun f mem => ⟨rfl, Json.stable_of_isFlat (flat f mem)⟩
    · exact Json.stable_of_isFlat (v := .str r.recordHash) trivial
  show r.reread.dumps true = r.toJson.dumps true ↔ _
  rw [written, again, List.append_cancel_left_eq, List.append_cancel_right_eq]
  rfl

theorem canonical_materialOf (stable : r.toJson.Stable) {gs : List (PyStr × Json)} (read : r.reread = .obj gs) :
    ChangeSet.canonical (materialOf gs) = .ok (PyStr.encodeAscii ((Json.obj r.material).dumps true)) := by
  obtain ⟨gs', read', perm⟩ := built.exists_reread
  obtain rfl : gs = gs' := Json.obj.inj (read.symm.trans read')
  have evidenceStable := built.stable_iff.1 stable
  have keys : (r.material.map Prod.fst).Nodup := by
    have all := nodup_keys
    rw [← built.keys, NewRecord.fields, List.map_append, List.nodup_append] at all
    exact all.1
  have covered : (gs.filter fun f => f.1 ≠ ("record_hash" : PyStr)).Perm (r.material.map Json.readField) := by
    refine (perm.filter _).trans (List.Perm.of_eq ?_)
    have others : ∀ f ∈ r.material, f.1 ≠ ("record_hash" : PyStr) := by
      intro f mem e
      have all := nodup_keys
      rw [← built.keys, NewRecord.fields, List.map_append, List.nodup_append] at all
      exact all.2.2 _ (List.mem_map_of_mem mem) _ List.mem_cons_self e
    have kept : (r.material.map Json.readField).filter (fun f => f.1 ≠ ("record_hash" : PyStr)) =
        r.material.map Json.readField := by
      rw [List.filter_eq_self]
      intro f mem
      obtain ⟨g, inside, rfl⟩ := List.mem_map.1 mem
      exact decide_eq_true (others g inside)
    rw [NewRecord.fields, List.map_append, List.filter_append, kept]
    exact List.append_nil _
  have nodup : ((gs.filter fun f => f.1 ≠ ("record_hash" : PyStr)).map Prod.fst).Nodup := by
    rw [(covered.map Prod.fst).nodup_iff, Json.map_fst_readField]
    exact keys
  have text : (materialOf gs).dumps true = (Json.obj r.material).dumps true := by
    rw [materialOf, Json.dumps_perm nodup covered]
    refine Json.dumps_congr ?_
    rw [List.forall₂_map_left_iff, List.forall₂_same]
    intro f mem
    refine ⟨rfl, ?_⟩
    rcases built.flat f (List.mem_append_left _ mem) with flat | rfl
    · exact Json.stable_of_isFlat flat
    · exact evidenceStable
  have finite : (materialOf gs).isFinite = true := by
    rw [materialOf, Json.isFinite, Json.fieldsFinite_iff]
    intro f mem
    obtain ⟨g, inside, rfl⟩ := List.mem_map.1 (covered.mem_iff.1 mem)
    refine Json.isFinite_reread _ ?_
    rw [Json.isFinite_sortKeys]
    exact Json.fieldsFinite_iff.1 built.finite g inside
  rw [ChangeSet.canonical, if_pos finite, text]

theorem recordHash_eq : r.recordHash = sha256 (PyStr.encodeAscii (lastOf prev) ++
    PyStr.encodeAscii ((Json.obj r.material).dumps true)) := by
  rw [NewRecord.recordHash, built.hash]
  rfl

theorem checkRecord_reread (stable : r.toJson.Stable) (plain : Plain a) (last : lastHash events = lastOf prev) :
    checkRecord a events r.recordHash r.reread = .ok () := by
  obtain ⟨gs, read, -⟩ := built.exists_reread
  have record := (built.entryIs_reread built.recordHash).2 (PyStr.unpaired_ofChars _)
  have prevHash := (built.entryIs_reread built.prevHash).2 (unpaired_lastOf prev)
  have worktree := (built.entryIs_reread built.worktreeId).2 plain.worktreeId
  have lease := (built.entryIs_reread built.leaseId).2 plain.leaseId
  have fence := (built.entryIs_reread built.fencingToken).2 plain.fencingToken
  rw [read] at record prevHash worktree lease fence ⊢
  show (ChangeSet.canonical (materialOf gs) >>= _) = _
  rw [built.canonical_materialOf stable read]
  show (if _ then _ else _) = _
  rw [last, ← built.recordHash_eq, if_pos ⟨rfl, record, prevHash⟩, if_pos ⟨worktree, lease, fence⟩]

theorem plain_of_checkRecord {supplied : PyStr} (checked : checkRecord a events supplied r.reread = .ok ()) :
    Plain a := by
  obtain ⟨gs, read, -⟩ := built.exists_reread
  have all : entryIs r.reread "worktree_id" a.worktreeId ∧ entryIs r.reread "lease_id" a.leaseId ∧
      entryIs r.reread "fencing_token" a.fencingToken := by
    rw [read] at checked ⊢
    obtain ⟨text, -, checked⟩ := bind_ok.1 checked
    dsimp only at checked
    split_ifs at checked with chain authority
    exact authority
  exact ⟨(built.entryIs_reread built.worktreeId).1 all.1, (built.entryIs_reread built.leaseId).1 all.2.1,
    (built.entryIs_reread built.fencingToken).1 all.2.2⟩

end Built

/-! ## Reading the frames -/

theorem parseRecord_payload (r : NewRecord) : parseRecord r.payload = .ok r.reread := by
  have read := Json.loadsBytes_dumps r.toJson
  rw [parseRecord, NewRecord.payload, read]
  rfl

theorem length_frame (r : NewRecord) : (frame r).length = 4 + r.payload.length + r.hash.length := by
  rw [frame, List.length_append, List.length_append, Bytes.length_packBE]

theorem readFrom_frame (small : r.payload.length < 2 ^ 32) (hash : r.hash.length = 32) (recover : Bool)
    (events : List Json) (rest : Bytes) :
    readFrom a recover events (frame r ++ rest) = (do
      checkRecord a events r.recordHash r.reread
      readFrom a recover (events ++ [r.reread]) rest) := by
  have size := length_frame r
  have full : frame r ++ rest ≠ [] := by
    intro e
    have := congrArg List.length e
    rw [List.length_append, List.length_nil] at this
    omega
  have split : frame r ++ rest = Bytes.packBE 4 r.payload.length ++ (r.payload ++ (r.hash ++ rest)) := by
    rw [frame, List.append_assoc, List.append_assoc]
  have head : (frame r ++ rest).take 4 = Bytes.packBE 4 r.payload.length := by
    rw [split]
    exact List.take_left' (Bytes.length_packBE _ _)
  have behind : (frame r ++ rest).drop 4 = r.payload ++ (r.hash ++ rest) := by
    rw [split]
    exact List.drop_left' (Bytes.length_packBE _ _)
  have length : Bytes.unpackBE (Bytes.packBE 4 r.payload.length) = r.payload.length :=
    Bytes.unpackBE_packBE (by omega)
  have fits : ¬ (r.payload ++ (r.hash ++ rest)).length < r.payload.length + 32 := by
    rw [List.length_append, List.length_append]
    omega
  have supplied : ((r.payload ++ (r.hash ++ rest)).drop r.payload.length).take 32 = r.hash := by
    rw [List.drop_left, List.take_left' hash]
  have left : (r.payload ++ (r.hash ++ rest)).drop (r.payload.length + 32) = rest := by
    rw [← List.append_assoc]
    exact List.drop_left' (by rw [List.length_append, hash])
  have long : ¬ (frame r ++ rest).length < 4 := by
    rw [List.length_append]
    omega
  rw [readFrom, if_neg full, if_neg long]
  dsimp only
  rw [head, behind, length, if_neg fits, List.take_left, supplied, left, parseRecord_payload]
  rfl

theorem readFrom_cut (small : r.payload.length < 2 ^ 32) (hash : r.hash.length = 32) {cut : Bytes}
    (front : cut <+: frame r) (short : cut.length < (frame r).length) (events : List Json) :
    readFrom a true events cut = .ok events := by
  rw [readFrom]
  by_cases empty : cut = []
  · rw [if_pos empty]
  · rw [if_neg empty]
    by_cases tiny : cut.length < 4
    · rw [if_pos tiny]
      rfl
    · have head : cut.take 4 = Bytes.packBE 4 r.payload.length := by
        obtain ⟨rest, whole⟩ := front
        have start : (cut ++ rest).take 4 = Bytes.packBE 4 r.payload.length := by
          rw [whole, frame, List.append_assoc]
          exact List.take_left' (Bytes.length_packBE _ _)
        rwa [List.take_append_of_le_length (by omega)] at start
      have length : Bytes.unpackBE (Bytes.packBE 4 r.payload.length) = r.payload.length :=
        Bytes.unpackBE_packBE (by omega)
      have torn : (cut.drop 4).length < r.payload.length + 32 := by
        rw [length_frame, hash] at short
        rw [List.length_drop]
        omega
      rw [if_neg tiny]
      dsimp only
      rw [head, length, if_pos torn]
      rfl

theorem Built.length_hash (built : Built a prev r evidence) : r.hash.length = 32 := by
  rw [built.hash, Sha256.length_digest]

theorem Chain.mem (chain : Chain a rs) (mem : r ∈ rs) : ∃ prev evidence, Built a prev r evidence ∧
    r.payload.length < 2 ^ 32 := by
  obtain ⟨prev, rest, rfl⟩ := List.append_of_mem mem
  obtain ⟨evidence, built, small⟩ := (chain prev r rest rfl).built
  exact ⟨prev, evidence, built, small⟩

theorem Chain.lastHash_map (chain : Chain a rs) : lastHash (rs.map NewRecord.reread) = lastOf rs := by
  rcases List.eq_nil_or_concat rs with rfl | ⟨init, last, rfl⟩
  · rfl
  · rw [List.concat_eq_append] at chain ⊢
    obtain ⟨evidence, built, -⟩ := (chain init last [] rfl).built
    rw [List.map_append, List.map_singleton, built.lastHash_reread, lastOf, List.getLast?_concat]

/-- What `read` returns of the frames of a chain, when it returns: the records, and their authority is plain. -/
theorem eq_of_readFrom {recover : Bool} {out : List Json} (chain : Chain a rs)
    (read : readFrom a recover events (rs.flatMap frame) = .ok out) :
    out = events ++ rs.map NewRecord.reread ∧ (rs ≠ [] → Plain a) := by
  have frames : ∀ r ∈ rs, ∃ prev evidence, Built a prev r evidence ∧ r.payload.length < 2 ^ 32 :=
    fun r mem => chain.mem mem
  clear chain
  induction rs generalizing events with
  | nil =>
    rw [List.flatMap_nil, readFrom, if_pos rfl] at read
    cases read
    exact ⟨(List.append_nil _).symm, fun e => absurd rfl e⟩
  | cons r rs ih =>
    obtain ⟨⟨prev, evidence, built, small⟩, others⟩ := List.forall_mem_cons.1 frames
    rw [List.flatMap_cons, readFrom_frame small built.length_hash] at read
    obtain ⟨_, checked, read⟩ := bind_ok.1 read
    obtain ⟨rfl, -⟩ := ih read others
    exact ⟨by rw [List.append_assoc]; rfl, fun _ => built.plain_of_checkRecord checked⟩

theorem readFrom_frames (plain : Plain a) (recover : Bool) (rest : Bytes) (chain : Chain a (prev ++ rs))
    (stable : ∀ r ∈ rs, r.toJson.Stable) :
    readFrom a recover (prev.map NewRecord.reread) (rs.flatMap frame ++ rest) =
      readFrom a recover ((prev ++ rs).map NewRecord.reread) rest := by
  induction rs generalizing prev with
  | nil =>
    rw [List.append_nil]
    rfl
  | cons r rs ih =>
    obtain ⟨first, others⟩ := List.forall_mem_cons.1 stable
    obtain ⟨evidence, built, small⟩ := (chain prev r rs rfl).built
    have front : Chain a prev := chain.of_isPrefix (List.prefix_append _ _)
    have checked := built.checkRecord_reread first plain front.lastHash_map
    have split : prev ++ r :: rs = (prev ++ [r]) ++ rs := List.append_cons _ _ _
    rw [split] at chain ⊢
    have next := ih chain others
    rw [List.map_append, List.map_singleton] at next
    rw [List.flatMap_cons, List.append_assoc, readFrom_frame small built.length_hash, checked]
    exact next

def bytesOf (rs : List NewRecord) : Bytes := header ++ rs.flatMap frame

theorem read_header (recover : Bool) (rest : Bytes) :
    read a (some (header ++ rest)) recover = readFrom a recover [] rest := by
  have start : header.isPrefixOf (header ++ rest) = true := List.isPrefixOf_iff_prefix.2 (List.prefix_append _ _)
  rw [read, if_pos start, List.drop_left]

theorem bytesOf_snoc (rs : List NewRecord) (r : NewRecord) : bytesOf rs ++ frame r = bytesOf (rs ++ [r]) := by
  rw [bytesOf, bytesOf, List.flatMap_append, List.append_assoc, List.flatMap_singleton]

/-! ## Runs -/

/-- One call of `append`, with the records that the calls have added. -/
def step (codecs : Codecs) (a : JournalAuthority) (s : Option Bytes × List NewRecord) (entry : Entry) :
    Option Bytes × List NewRecord :=
  match append codecs a s.1 entry with
  | (file, .ok (.added record)) => (file, s.2 ++ [record])
  | (file, _) => (file, s.2)

/-- The file is the header and the frames of the records, which are a chain. -/
def Inv (a : JournalAuthority) (s : Option Bytes × List NewRecord) : Prop :=
  Chain a s.2 ∧ (s.1 = some (bytesOf s.2) ∨ s.1 = none ∧ s.2 = [])

theorem Inv.file_getD {s : Option Bytes × List NewRecord} (inv : Inv a s) : s.1.getD header = bytesOf s.2 := by
  obtain ⟨-, holds | ⟨absent, empty⟩⟩ := inv
  · rw [holds]
    rfl
  · rw [absent, empty]
    exact (List.append_nil _).symm

theorem Inv.eq_of_read {s : Option Bytes × List NewRecord} (inv : Inv a s) (known : read a s.1 false = .ok events) :
    events = s.2.map NewRecord.reread := by
  obtain ⟨chain, holds | ⟨absent, empty⟩⟩ := inv
  · rw [holds, bytesOf, read_header] at known
    exact (eq_of_readFrom chain known).1
  · rw [absent] at known
    cases known
    rw [empty]
    rfl

/-- A call of `append` that goes on to write has built its record behind the records of the run. -/
theorem Inv.sealed {s : Option Bytes × List NewRecord} {entry : Entry} (inv : Inv a s)
    (added : prepare codecs a s.1 entry = .ok (.added r)) : ∃ id binary,
      sealRecord (lastOf s.2) (material a (s.2.map NewRecord.reread) id binary entry.state entry.evidence) = .ok r := by
  obtain ⟨_, -, added⟩ := bind_ok.1 added
  obtain ⟨events, known, added⟩ := bind_ok.1 added
  obtain ⟨id, -, added⟩ := bind_ok.1 added
  obtain rfl := inv.eq_of_read known
  split at added
  · cases added
  · obtain ⟨binary, -, added⟩ := bind_ok.1 added
    obtain ⟨record, sealed, added⟩ := bind_ok.1 added
    cases added
    rw [inv.1.lastHash_map] at sealed
    exact ⟨_, _, sealed⟩

/-- The record that `append` adds follows the records of the run. -/
theorem Inv.follows {s : Option Bytes × List NewRecord} {entry : Entry} (inv : Inv a s)
    (added : prepare codecs a s.1 entry = .ok (.added r)) (small : r.payload.length < 2 ^ 32) : Follows a s.2 r := by
  obtain ⟨id, binary, sealed⟩ := inv.sealed added
  exact ⟨_, _, _, _, _, List.length_map _, inv.1.lastHash_map, sealed, small⟩

/-- Every call of `append` keeps the invariant. -/
theorem inv_step {s : Option Bytes × List NewRecord} (inv : Inv a s) (entry : Entry) :
    Inv a (step codecs a s entry) := by
  unfold step append
  cases prepared : prepare codecs a s.1 entry with
  | error x => exact inv
  | ok appended =>
    cases appended with
    | found event => exact inv
    | added record =>
      dsimp only
      by_cases small : record.payload.length < 2 ^ 32
      · rw [if_pos small]
        refine ⟨inv.1.snoc (inv.follows prepared small), .inl ?_⟩
        rw [inv.file_getD]
        exact congrArg some (bytesOf_snoc _ _)
      · rw [if_neg small]
        exact ⟨inv.1, .inl (congrArg some inv.file_getD)⟩

theorem run_inv (codecs : Codecs) (a : JournalAuthority) (entries : List Entry) :
    Inv a (run (step codecs a) (none, []) entries) := by
  have keeps (s : Option Bytes × List NewRecord) (inv : Inv a s) : Inv a (run (step codecs a) s entries) := by
    induction entries generalizing s with
    | nil => exact inv
    | cons entry entries ih => exact ih _ (inv_step inv entry)
  exact keeps _ ⟨.nil, .inr ⟨rfl, rfl⟩⟩

/-! ## Recovery of a prefix -/

/-- The records whose frames lie completely inside the first `k` bytes of a journal. -/
def completeRecords (k : ℕ) (rs : List NewRecord) : List NewRecord := Frames.complete frame (k - header.length) rs

/-- The file is read, and the texts of what is read are those of the records. -/
def Holds (a : JournalAuthority) (file : Option Bytes) (rs : List NewRecord) : Prop :=
  ∃ events, read a file false = .ok events ∧ events.map (Json.dumps true) = rs.map fun r => r.toJson.dumps true

/-- The record that a call of `append` adds, when it adds one. -/
def Appended.records : Appended → List NewRecord
  | .found _ => []
  | .added record => [record]

/-- `recover` returns, cuts the file down to the given records and leaves it readable; the next `append` returns, and
what is read then are the records and the one that it added. -/
structure Recovers (codecs : Codecs) (a : JournalAuthority) (kept : List NewRecord) (file : Option Bytes)
    (next : Entry) : Prop where
  returns : ∃ report, (recover a file).2 = .ok report
  truncates : (recover a file).1 = some (bytesOf kept)
  holds : Holds a (recover a file).1 kept
  appends : ∃ appended, (append codecs a (recover a file).1 next).2 = .ok appended ∧
    Holds a (append codecs a (recover a file).1 next).1 (kept ++ appended.records)

/-- One of the records holds the state of the call for its change set. -/
def Found (codecs : Codecs) (kept : List NewRecord) (next : Entry) : Prop :=
  ∃ id, next.changeset.changesetId codecs = .ok id ∧ ∃ r ∈ kept, holdsState id next.state r.reread = true

/-- The call has an id and belongs to the journal, and the record that it adds can be built and fits into a frame. -/
def Admissible (codecs : Codecs) (a : JournalAuthority) (kept : List NewRecord) (next : Entry) : Prop :=
  Bound a next.changeset ∧ ∃ id, next.changeset.changesetId codecs = .ok id ∧
    (Found codecs kept next ∨ ∃ binary record, next.changeset.encode codecs = .ok binary ∧
      sealRecord (lastOf kept) (material a (kept.map NewRecord.reread) id (sha256 binary) next.state next.evidence) =
        .ok record ∧ record.payload.length < 2 ^ 32)

theorem canonical_reread (built : Built a prev r evidence) (stable : r.toJson.Stable) :
    ChangeSet.canonical r.reread = .ok r.payload := by
  have whole : r.toJson.isFinite = true := by
    have covered := built.finite
    rw [Json.isFinite, Json.fieldsFinite_iff] at covered
    rw [NewRecord.toJson, Json.isFinite, Json.fieldsFinite_iff, List.forall_mem_append, List.forall_mem_singleton]
    exact ⟨covered, rfl⟩
  have finite : r.reread.isFinite = true := by
    refine Json.isFinite_reread _ ?_
    rwa [Json.isFinite_sortKeys]
  have text : r.reread.dumps true = r.toJson.dumps true := stable
  rw [ChangeSet.canonical, if_pos finite, text, NewRecord.payload]

theorem read_bytesOf (chain : Chain a kept) (plain : Plain a) (stable : ∀ r ∈ kept, r.toJson.Stable) (recover : Bool)
    (rest : Bytes) :
    read a (some (bytesOf kept ++ rest)) recover = readFrom a recover (kept.map NewRecord.reread) rest := by
  have whole : Chain a ([] ++ kept) := chain
  have frames := readFrom_frames plain recover rest whole stable
  rw [bytesOf, List.append_assoc, read_header]
  exact frames

theorem holds_bytesOf (chain : Chain a kept) (plain : Plain a) (stable : ∀ r ∈ kept, r.toJson.Stable) :
    Holds a (some (bytesOf kept)) kept := by
  have known := read_bytesOf chain plain stable false []
  rw [List.append_nil, readFrom, if_pos rfl] at known
  refine ⟨_, known, ?_⟩
  rw [List.map_map]
  exact List.map_congr_left fun r mem => stable r mem

theorem stable_of_holds (chain : Chain a kept) (holds : Holds a (some (bytesOf kept)) kept) :
    (∀ r ∈ kept, r.toJson.Stable) ∧ (kept ≠ [] → Plain a) := by
  obtain ⟨events, known, texts⟩ := holds
  rw [bytesOf, read_header] at known
  obtain ⟨rfl, plain⟩ := eq_of_readFrom chain known
  refine ⟨fun r mem => ?_, plain⟩
  rw [List.nil_append, List.map_map] at texts
  exact List.map_inj_left.1 texts r mem

theorem length_bytesOf (frames : ∀ r ∈ kept, r.hash.length = 32) :
    (bytesOf kept).length = header.length + (kept.map fun r => 4 + r.payload.length + 32).sum := by
  rw [bytesOf, List.length_append, List.length_flatMap]
  refine congrArg (header.length + ·) (congrArg List.sum (List.map_congr_left fun r mem => ?_))
  rw [length_frame, frames r mem]

/-- `recover` cuts off what is not complete. -/
theorem recover_bytesOf (chain : Chain a kept) (plain : Plain a) (stable : ∀ r ∈ kept, r.toJson.Stable) {cut : Bytes}
    (torn : ∀ events, readFrom a true events cut = .ok events) :
    (recover a (some (bytesOf kept ++ cut))).1 = some (bytesOf kept) ∧
      ∃ report, (recover a (some (bytesOf kept ++ cut))).2 = .ok report := by
  have known := read_bytesOf chain plain stable true cut
  rw [torn] at known
  have payloads : (kept.map NewRecord.reread).mapM ChangeSet.canonical =
      .ok ((kept.map NewRecord.reread).map fun event => PyStr.encodeAscii (event.dumps true)) := by
    refine Except.mapM_eq_ok fun event mem => ?_
    obtain ⟨r, inside, rfl⟩ := List.mem_map.1 mem
    obtain ⟨prev, evidence, built, -⟩ := chain.mem inside
    have text : r.reread.dumps true = r.toJson.dumps true := stable r inside
    rw [canonical_reread built (stable r inside), text, NewRecord.payload]
  have size : header.length + (((kept.map NewRecord.reread).map fun event =>
      PyStr.encodeAscii (event.dumps true)).map fun payload => 4 + payload.length + 32).sum =
      (bytesOf kept).length := by
    rw [length_bytesOf fun r mem => (chain.mem mem).elim fun _ h => h.elim fun _ h => h.1.length_hash, List.map_map,
      List.map_map]
    refine congrArg (header.length + ·) (congrArg List.sum (List.map_congr_left fun r mem => ?_))
    have text : r.reread.dumps true = r.toJson.dumps true := stable r mem
    show 4 + (PyStr.encodeAscii (r.reread.dumps true)).length + 32 = _
    rw [text, NewRecord.payload]
  unfold recover
  dsimp only
  rw [known]
  dsimp only
  rw [payloads]
  dsimp only
  rw [size]
  split_ifs with left
  · rw [List.take_left]
    exact ⟨rfl, _, rfl⟩
  · have nothing : cut = [] := by
      rw [List.length_append, Nat.add_sub_cancel_left] at left
      exact List.length_eq_zero_iff.1 (not_not.1 left)
    rw [nothing, List.append_nil]
    exact ⟨rfl, _, rfl⟩

theorem inv_bytesOf (chain : Chain a kept) : Inv a (some (bytesOf kept), kept) := ⟨chain, .inl rfl⟩

variable {next : Entry}

theorem Bound.checkAuthority {c : BinaryChangeSet} (bound : Bound a c) : checkAuthority a c = .ok () := by
  obtain ⟨worktree, lease, fence⟩ := bound
  rw [JournalFile.checkAuthority, if_neg (not_not_intro worktree), if_neg (not_not_intro lease),
    if_neg (not_not_intro fence)]

theorem appends_bytesOf (chain : Chain a kept) (plain : Plain a) (stable : ∀ r ∈ kept, r.toJson.Stable)
    (admissible : Admissible codecs a kept next) (fresh : Found codecs kept next ∨ next.evidence.toJson.Stable) :
    ∃ appended, (append codecs a (some (bytesOf kept)) next).2 = .ok appended ∧
      Holds a (append codecs a (some (bytesOf kept)) next).1 (kept ++ appended.records) := by
  obtain ⟨bound, id, known, found⟩ := admissible
  have events : read a (some (bytesOf kept)) false = .ok (kept.map NewRecord.reread) := by
    have whole := read_bytesOf chain plain stable false []
    rwa [List.append_nil, readFrom, if_pos rfl] at whole
  cases search : (kept.map NewRecord.reread).find? (holdsState id next.state) with
  | some event =>
    have prepared : prepare codecs a (some (bytesOf kept)) next = .ok (.found event) := by
      refine bind_ok.2 ⟨_, bound.checkAuthority, bind_ok.2 ⟨_, events,
        bind_ok.2 ⟨_, known, ?_⟩⟩⟩
      rw [search]
      rfl
    refine ⟨.found event, ?_, ?_⟩
    · unfold append
      rw [prepared]
    · unfold append
      rw [prepared]
      show Holds a (some (bytesOf kept)) (kept ++ [])
      rw [List.append_nil]
      exact holds_bytesOf chain plain stable
  | none =>
    have missing : ¬ Found codecs kept next := by
      rintro ⟨id', known', r, mem, holds⟩
      obtain rfl : id = id' := Except.ok.inj (known.symm.trans known')
      exact List.find?_eq_none.1 search _ (List.mem_map_of_mem mem) holds
    obtain ⟨binary, record, encoded, sealed, small⟩ := found.resolve_left missing
    have last := chain.lastHash_map
    have prepared : prepare codecs a (some (bytesOf kept)) next = .ok (.added record) := by
      refine bind_ok.2 ⟨_, bound.checkAuthority, bind_ok.2 ⟨_, events,
        bind_ok.2 ⟨_, known, ?_⟩⟩⟩
      rw [search]
      refine bind_ok.2 ⟨_, encoded, bind_ok.2 ⟨_, ?_, rfl⟩⟩
      rw [last]
      exact sealed
    have extended : Chain a (kept ++ [record]) := chain.snoc ((inv_bytesOf chain).follows prepared small)
    have built : Built a kept record next.evidence := built_of_sealRecord last sealed
    have allStable : ∀ r ∈ kept ++ [record], r.toJson.Stable := by
      rw [List.forall_mem_append, List.forall_mem_singleton]
      exact ⟨stable, built.stable_iff.2 (fresh.resolve_left missing)⟩
    refine ⟨.added record, ?_, ?_⟩
    · unfold append
      rw [prepared]
      dsimp only
      rw [if_pos small]
    · unfold append
      rw [prepared]
      dsimp only
      rw [if_pos small, Option.getD_some, bytesOf_snoc]
      exact holds_bytesOf extended plain allStable

theorem fresh_of_appends (chain : Chain a kept) (plain : kept ≠ [] → Plain a) {appended : Appended}
    (returned : (append codecs a (some (bytesOf kept)) next).2 = .ok appended)
    (holds : Holds a (append codecs a (some (bytesOf kept)) next).1 (kept ++ appended.records)) :
    Plain a ∧ (Found codecs kept next ∨ next.evidence.toJson.Stable) := by
  unfold append at returned holds
  cases prepared : prepare codecs a (some (bytesOf kept)) next with
  | error x =>
    rw [prepared] at returned
    cases returned
  | ok value =>
    rw [prepared] at returned holds
    cases value with
    | found event =>
      obtain ⟨_, -, rest⟩ := bind_ok.1 prepared
      obtain ⟨events, known, rest⟩ := bind_ok.1 rest
      obtain ⟨id, hid, rest⟩ := bind_ok.1 rest
      obtain rfl := (inv_bytesOf chain).eq_of_read known
      split at rest
      · rename_i event' search
        obtain ⟨r, mem, e⟩ := List.mem_map.1 (List.mem_of_find?_eq_some search)
        have holds := List.find?_some search
        rw [← e] at holds
        exact ⟨plain (List.ne_nil_of_mem mem), .inl ⟨id, hid, r, mem, holds⟩⟩
      · obtain ⟨binary, -, rest⟩ := bind_ok.1 rest
        obtain ⟨record, -, rest⟩ := bind_ok.1 rest
        cases rest
    | added record =>
      dsimp only at returned holds
      by_cases small : record.payload.length < 2 ^ 32
      · rw [if_pos small] at returned holds
        cases returned
        have extended : Chain a (kept ++ [record]) := chain.snoc ((inv_bytesOf chain).follows prepared small)
        rw [Option.getD_some, bytesOf_snoc] at holds
        obtain ⟨allStable, plain⟩ := stable_of_holds extended holds
        obtain ⟨id, binary, sealed⟩ := (inv_bytesOf chain).sealed prepared
        have built := built_of_sealRecord chain.lastHash_map sealed
        exact ⟨plain (by simp), .inr (built.stable_iff.1 (allStable record (by simp)))⟩
      · rw [if_neg small] at returned
        cases returned

theorem recover_of_short {raw : Bytes} {k : ℕ} (short : k < header.length) :
    (recover a (some (raw.take k))).2 = .error (.reason "journal_header_invalid") := by
  have other : ¬ header.isPrefixOf (raw.take k) = true := by
    intro front
    have size := (List.isPrefixOf_iff_prefix.1 front).length_le
    rw [List.length_take] at size
    omega
  have known : read a (some (raw.take k)) true = .error (.reason "journal_header_invalid") := by rw [read, if_neg other]
  unfold recover
  dsimp only
  rw [known]

/-- After a crash that leaves the first `k` bytes of the file of a run, the journal recovers and goes on with the next
call exactly when the header is complete, the authority is plain, and the complete records and the new one are
stable. -/
theorem prefix_recovers_iff {entries : List Entry} {raw : Bytes} {records : List NewRecord}
    (written : run (step codecs a) (none, []) entries = (some raw, records)) (k : ℕ)
    (admissible : Admissible codecs a (completeRecords k records) next) :
    Recovers codecs a (completeRecords k records) (some (raw.take k)) next ↔
      header.length ≤ k ∧ Plain a ∧ (∀ r ∈ completeRecords k records, r.toJson.Stable) ∧
        (Found codecs (completeRecords k records) next ∨ next.evidence.toJson.Stable) := by
  have inv := run_inv codecs a entries
  rw [written] at inv
  have bytes : raw = bytesOf records := by
    obtain ⟨-, holds | ⟨absent, -⟩⟩ := inv
    · exact Option.some.inj holds
    · cases absent
  have first : completeRecords k records <+: records := Frames.complete_isPrefix _ _ _
  have chain : Chain a (completeRecords k records) := inv.1.of_isPrefix first
  constructor
  · intro h
    have long : header.length ≤ k := by
      by_contra short
      obtain ⟨report, returned⟩ := h.returns
      rw [recover_of_short (by omega)] at returned
      cases returned
    have holds := h.holds
    obtain ⟨appended, returned, after⟩ := h.appends
    rw [h.truncates] at holds returned after
    obtain ⟨stable, plain⟩ := stable_of_holds chain holds
    obtain ⟨plain, fresh⟩ := fresh_of_appends chain plain returned after
    exact ⟨long, plain, stable, fresh⟩
  · rintro ⟨long, plain, stable, fresh⟩
    obtain ⟨cut, taken, part⟩ := Frames.exists_cut frame (k - header.length) records
    have front : raw.take k = bytesOf (completeRecords k records) ++ cut := by
      rw [bytes, bytesOf, bytesOf, List.take_append, List.take_of_length_le long, taken, List.append_assoc]
      rfl
    have torn : ∀ events, readFrom a true events cut = .ok events := by
      intro events
      rcases part with rfl | ⟨r, rest, split, piece, short⟩
      · rw [readFrom, if_pos rfl]
      · obtain ⟨prev, evidence, built, small⟩ := inv.1.mem (r := r) (by
          rw [split]
          exact List.mem_append_right _ List.mem_cons_self)
        exact readFrom_cut small built.length_hash piece short events
    obtain ⟨truncates, returns⟩ := recover_bytesOf chain plain stable torn
    rw [front]
    refine ⟨returns, truncates, ?_, ?_⟩
    · rw [truncates]
      exact holds_bytesOf chain plain stable
    · rw [truncates]
      exact appends_bytesOf chain plain stable admissible fresh

theorem completeRecords_of_le {k : ℕ} (short : k ≤ header.length) (rs : List NewRecord) : completeRecords k rs = [] := by
  cases rs with
  | nil => rfl
  | cons r rs =>
    have size := length_frame r
    have nothing : k - header.length = 0 := Nat.sub_eq_zero_of_le short
    rw [completeRecords, nothing, Frames.complete, if_neg (by omega)]

theorem step_of_prepared {file : Option Bytes} (records : List NewRecord)
    (prepared : prepare codecs a file next = .ok (.added r)) (small : r.payload.length < 2 ^ 32) :
    step codecs a (file, records) next = (some (file.getD header ++ frame r), records ++ [r]) := by
  unfold step append
  rw [prepared]
  dsimp only
  rw [if_pos small]

/-! ## A journal with one record -/

theorem length_changesetId {c : BinaryChangeSet} (h : c.changesetId codecs = .ok id) : id.length = 64 := by
  obtain ⟨identity, -, h⟩ := bind_ok.1 h
  obtain ⟨text, -, h⟩ := bind_ok.1 h
  cases h
  rw [sha256, PyStr.ofChars, List.length_map, Sha256.length_hexdigest]

def smallAuthority : JournalAuthority := ⟨"w", "l", "f", by decide +kernel⟩

/-- A call that records the small change set as sealed. -/
def sealedEntry : Entry := ⟨createEmpty, "sealed", .empty⟩

theorem length_payload_sealedEntry (hid : id.length = 64) (hbinary : binary.length = 64)
    (sealed : sealRecord (lastOf []) (material smallAuthority [] id binary "sealed" .empty) = .ok r) :
    r.payload.length < 2 ^ 32 := by
  obtain ⟨entries, -, hash⟩ := sealRecord_eq_ok sealed
  have record : r.recordHash.length = 64 := by
    rw [NewRecord.recordHash, PyStr.ofChars, List.length_map, Bytes.length_hex, hash, Sha256.length_digest]
  have text (s : PyStr) : (Json.dumps true (.str s)).length ≤ 2 + 12 * s.length := Json.length_writeStr_le true s
  have idText := text id
  have binaryText := text binary
  have recordText := text r.recordHash
  have fields : r.fields = material smallAuthority [] id binary "sealed" .empty ++
      [(("record_hash" : PyStr), .str r.recordHash)] := by rw [NewRecord.fields, entries]
  have bound := Json.length_dumps_obj true (show r.fields ≠ [] by rw [fields]; exact List.concat_ne_nil _ _)
  have others : ((material smallAuthority [] [] [] "sealed" .empty ++
      [(("record_hash" : PyStr), Json.str [])]).map fun f : PyStr × Json =>
      (Json.writeStr true f.1).length + 2 + (Json.dumps true f.2).length).sum < 2000 := by decide +kernel
  have size : r.payload.length = (Json.dumps true (.obj r.fields)).length := List.length_map _
  rw [← size, fields] at bound
  simp only [material, List.cons_append, List.nil_append, List.map_cons, List.map_nil, List.sum_cons,
    List.sum_nil] at bound others
  omega

theorem prepare_sealedEntry : ∃ id binary record, createEmpty.changesetId utf8Codecs = .ok id ∧
    createEmpty.encode utf8Codecs = .ok binary ∧
    sealRecord (lastOf []) (material smallAuthority [] id (sha256 binary) "sealed" .empty) = .ok record ∧
    record.payload.length < 2 ^ 32 ∧ prepare utf8Codecs smallAuthority none sealedEntry = .ok (.added record) := by
  have named := isOk_changesetId_createEmpty
  have encoded := isOk_encode_createEmpty
  cases hid : createEmpty.changesetId utf8Codecs with
  | error x =>
    rw [hid] at named
    cases named
  | ok id =>
    cases hb : createEmpty.encode utf8Codecs with
    | error x =>
      rw [hb] at encoded
      cases encoded
    | ok binary =>
      have sealed : ∃ record, sealRecord (lastOf [])
          (material smallAuthority [] id (sha256 binary) "sealed" .empty) = .ok record :=
        ⟨_, bind_ok.2 ⟨_, if_pos rfl, rfl⟩⟩
      obtain ⟨record, sealed⟩ := sealed
      have binaryLength : (sha256 binary).length = 64 := by
        rw [sha256, PyStr.ofChars, List.length_map, Sha256.length_hexdigest]
      refine ⟨id, binary, record, rfl, rfl, sealed,
        length_payload_sealedEntry (length_changesetId hid) binaryLength sealed, ?_⟩
      have bound : Bound smallAuthority createEmpty := ⟨rfl, rfl, rfl⟩
      refine bind_ok.2 ⟨_, bound.checkAuthority, bind_ok.2 ⟨[], rfl,
        bind_ok.2 ⟨_, hid, bind_ok.2 ⟨_, hb, bind_ok.2 ⟨_, sealed, rfl⟩⟩⟩⟩⟩

theorem run_sealedEntry {record : NewRecord} (small : record.payload.length < 2 ^ 32)
    (prepared : prepare utf8Codecs smallAuthority none sealedEntry = .ok (.added record)) :
    run (step utf8Codecs smallAuthority) (none, []) [sealedEntry] = (some (header ++ frame record), [record]) := by
  rw [run_cons, run_nil, step_of_prepared [] prepared small, Option.getD_none, List.nil_append]

/-- A journal with one record, and a crash behind its header: the record is gone, and it can be appended again. -/
theorem prefix_recovers_iff_sealedEntry : ∃ raw record,
    run (step utf8Codecs smallAuthority) (none, []) [sealedEntry] = (some raw, [record]) ∧
      (Recovers utf8Codecs smallAuthority (completeRecords 9 [record]) (some (raw.take 9)) sealedEntry ↔
        header.length ≤ 9 ∧ Plain smallAuthority ∧ (∀ r ∈ completeRecords 9 [record], r.toJson.Stable) ∧
          (Found utf8Codecs (completeRecords 9 [record]) sealedEntry ∨ sealedEntry.evidence.toJson.Stable)) := by
  obtain ⟨id, binary, record, hid, hb, sealed, small, prepared⟩ := prepare_sealedEntry
  have written := run_sealedEntry small prepared
  have nothing : completeRecords 9 [record] = [] := completeRecords_of_le (by decide) _
  refine ⟨_, record, written, prefix_recovers_iff written 9 ?_⟩
  rw [nothing]
  exact ⟨⟨rfl, rfl, rfl⟩, id, hid, .inr ⟨binary, record, hb, sealed, small⟩⟩

/-- A crash inside the header leaves a journal that `recover` refuses. -/
theorem not_recovers_cutMagic : ∃ raw record,
    run (step utf8Codecs smallAuthority) (none, []) [sealedEntry] = (some raw, [record]) ∧
      Admissible utf8Codecs smallAuthority (completeRecords 4 [record]) sealedEntry ∧
      ¬ Recovers utf8Codecs smallAuthority (completeRecords 4 [record]) (some (raw.take 4)) sealedEntry := by
  obtain ⟨id, binary, record, hid, hb, sealed, small, prepared⟩ := prepare_sealedEntry
  have written := run_sealedEntry small prepared
  have nothing : completeRecords 4 [record] = [] := completeRecords_of_le (by decide) _
  refine ⟨_, record, written, ?_, fun recovers => ?_⟩
  · rw [nothing]
    exact ⟨⟨rfl, rfl, rfl⟩, id, hid, .inr ⟨binary, record, hb, sealed, small⟩⟩
  · obtain ⟨report, returned⟩ := recovers.returns
    rw [recover_of_short (by decide)] at returned
    cases returned

end JournalFile

end SimplicioFast
