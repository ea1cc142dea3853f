import SimplicioFast.Temporal.Reload

/-!
# Overlays that persist

An overlay that is built without renaming a fact to itself is accepted by `verify`, and what `to_bytes` writes of it
is read by `from_bytes` as the same overlay, when every text that it holds can be encoded and the document is within
its bound (`always_persists_of_along`).  A rename of a fact to itself leaves an overlay that `verify` does not accept
(`verify_of_rename_self`).
-/

namespace SimplicioFast

open Json

namespace BitemporalOverlay

variable {s s' t : BitemporalOverlay} {f : BitemporalFact} {c : Conversions} {fs : List BitemporalFact} {id : PyStr}

/-! ## The sequences -/

/-- The sequences are those of the latest version, or 0. -/
structure Latest (s : BitemporalOverlay) : Prop where
  bound : ∀ id versions, s.facts.get? id = some versions → ∀ f ∈ versions,
    f.validFrom ≤ s.worldSequence ∧ f.observedAt ≤ s.observedSequence
  reached : (∀ id, s.facts.get? id = none) ∧ s.worldSequence = 0 ∧ s.observedSequence = 0 ∨
    ∃ id versions f, s.facts.get? id = some versions ∧ f ∈ versions ∧
      f.validFrom = s.worldSequence ∧ f.observedAt = s.observedSequence

theorem Latest.reread (h : s.Latest) (wf : s.WellFormed) : s.reread.Latest where
  bound id versions found := by
    obtain ⟨written, before, rfl⟩ := exists_of_get?_reread wf found
    exact List.forall_mem_map.2 (h.bound id written before)
  reached := by
    have read (id : PyStr) : s.reread.facts.get? id = (s.facts.get? id).map (List.map BitemporalFact.reread) :=
      get?_grouped_allVersions wf id
    rcases h.reached with ⟨none, zero⟩ | ⟨id, versions, f, found, mem, last⟩
    · refine .inl ⟨fun id => ?_, zero⟩
      rw [read, none id]
      rfl
    · refine .inr ⟨id, versions.map BitemporalFact.reread, f.reread, ?_, List.mem_map_of_mem mem, last⟩
      rw [read, found]
      rfl

theorem last_pushed (wf : s.WellFormed) (p : Push) : ∃ closed fact, (s.pushed p).facts.get? p.id = some (closed ++ [fact]) ∧
    fact.validFrom = p.world ∧ fact.observedAt = s.observedSequence + 1 ∧ fact.validTo = none := by
  cases found : s.facts.get? p.id with
  | none =>
    refine ⟨[], s.newFact p.id p.args p.state p.world p.args.predecessor, ?_, rfl, rfl, rfl⟩
    rw [BitemporalOverlay.pushed, push_of_new found]
    exact Dict.get?_set_self _ _ _
  | some history =>
    obtain ⟨closed, last, rfl, versions⟩ := wf.2 p.id _ found
    obtain ⟨fact, rfl, e⟩ := push_of_open found versions.isOpen p.args p.state p.world
    rw [BitemporalOverlay.pushed, e]
    exact ⟨_, _, Dict.get?_set_self _ _ _, rfl, rfl, rfl⟩

theorem Latest.pushed (h : s.Latest) (wf : s.WellFormed) {p : Push} (admits : s.Admits p) : (s.pushed p).Latest where
  bound id versions found f mem := by
    have grows : s.worldSequence ≤ p.world := admits.forward
    have before {id versions} (found : s.facts.get? id = some versions) {f : BitemporalFact} (mem : f ∈ versions) :
        f.validFrom ≤ p.world ∧ f.observedAt ≤ s.observedSequence + 1 := by
      obtain ⟨world, observed⟩ := h.bound id versions found f mem
      exact ⟨world.trans grows, by omega⟩
    rcases get?_pushed wf p found with ⟨-, same⟩ | ⟨-, -, rfl⟩ | ⟨-, closed, last, same, -, fact, rfl, rfl⟩
    · exact before same mem
    · obtain rfl := List.mem_singleton.1 mem
      exact ⟨le_rfl, le_rfl⟩
    · rcases List.mem_append.1 mem with mem | mem
      · rcases List.mem_append.1 mem with mem | mem
        · exact before same (List.mem_append_left _ mem)
        · obtain rfl := List.mem_singleton.1 mem
          exact before same (f := last) (List.mem_append_right _ List.mem_cons_self)
      · obtain rfl := List.mem_singleton.1 mem
        exact ⟨le_rfl, le_rfl⟩
  reached := by
    obtain ⟨closed, fact, found, world, observed, -⟩ := last_pushed wf p
    exact .inr ⟨p.id, closed ++ [fact], fact, found, List.mem_append_right _ (List.mem_singleton_self _), world, observed⟩

/-! ## Plain texts -/

theorem plain_of_isSha256 {t : PyStr} (h : t.isSha256 = true) : t.Plain := by
  intro n mem
  unfold PyStr.isSha256 at h
  have all := List.all_eq_true.1 (Bool.and_eq_true_iff.1 h).2 _ mem
  exact Bool.noConfusion all

/-- No text of the version has a lone surrogate. -/
structure PlainFact (f : BitemporalFact) : Prop where
  canonicalId : f.canonicalId.Plain
  sourceCommit : f.sourceCommit.Plain
  sourceSha256 : f.sourceSha256.Plain
  artifactDigest : f.artifactDigest.Plain
  reasonCode : ∀ t ∈ f.reasonCode, PyStr.Plain t
  predecessor : ∀ t ∈ f.predecessor, PyStr.Plain t
  successor : ∀ t ∈ f.successor, PyStr.Plain t
  dependencies : ∀ t ∈ f.dependencies, PyStr.Plain t
  provenance : ∀ n, ¬ f.provenance.toJson.HasSurrogate n

/-- The scope of the overlay is plain. -/
structure PlainScope (s : BitemporalOverlay) : Prop where
  repository : s.repository.Plain
  baseGeneration : s.baseGeneration.Plain
  overlayGeneration : ∀ t ∈ s.overlayGeneration, PyStr.Plain t

/-- What a run keeps: the versions follow one another, the last one is the latest, and all texts are plain. -/
structure Sound (s : BitemporalOverlay) : Prop where
  named : s.repository ≠ [] ∧ s.baseGeneration ≠ []
  positive : 0 ≤ s.observedSequence
  chained : s.Chained
  latest : s.Latest
  scope : s.PlainScope
  plain : ∀ id versions, s.facts.get? id = some versions → ∀ f ∈ versions, PlainFact f

theorem plain_newFact {p : Push} (admits : s.Admits p) {predecessor : Option PyStr}
    (commit : p.args.sourceCommit.Plain) (reason : ∀ t ∈ p.args.reasonCode, PyStr.Plain t)
    (dependencies : ∀ t ∈ p.args.dependencies, PyStr.Plain t)
    (provenance : ∀ n, ¬ p.args.provenance.toJson.HasSurrogate n) (before : ∀ t ∈ predecessor, PyStr.Plain t) :
    PlainFact (s.newFact p.id p.args p.state p.world predecessor) where
  canonicalId := plain_of_isSha256 admits.id
  sourceCommit := commit
  sourceSha256 := plain_of_isSha256 admits.sha
  artifactDigest := plain_of_isSha256 admits.artifact
  reasonCode := reason
  predecessor := before
  successor := fun _ none => by cases none
  dependencies := dependencies
  provenance := provenance

theorem PlainFact.link (h : PlainFact f) (state : FactState) (world observed : ℤ) (fact : BitemporalFact) :
    PlainFact (link (close f state world observed) fact) where
  canonicalId := h.canonicalId
  sourceCommit := h.sourceCommit
  sourceSha256 := h.sourceSha256
  artifactDigest := h.artifactDigest
  reasonCode := by
    intro t mem
    have given : t ∈ (if state = .active then some ("superseded" : PyStr) else f.reasonCode) := mem
    split at given
    · cases given
      exact fun n => surrogate_notMem_ofChars n _
    · exact h.reasonCode t given
  predecessor := h.predecessor
  successor := by
    rintro t ⟨⟩
    exact plain_digest fact
  dependencies := h.dependencies
  provenance := h.provenance

theorem Sound.pushed (h : s.Sound) {p : Push} (admits : s.Admits p) (plain : s.Plain p.id p.args) :
    (s.pushed p).Sound where
  named := h.named
  positive := by
    have before := h.positive
    show 0 ≤ s.observedSequence + 1
    omega
  chained := h.chained.pushed admits
  latest := h.latest.pushed h.chained.wellFormed admits
  scope := ⟨h.scope.repository, h.scope.baseGeneration, h.scope.overlayGeneration⟩
  plain id versions found f mem := by
    rcases get?_pushed h.chained.wellFormed p found with ⟨-, same⟩ | ⟨rfl, none, rfl⟩ |
      ⟨-, closed, last, same, -, fact, rfl, rfl⟩
    · exact h.plain id versions same f mem
    · obtain rfl := List.mem_singleton.1 mem
      exact plain_newFact admits plain.commit plain.reason plain.dependencies plain.provenance
        (plain.predecessor (current_of_get?_none none))
    · have old := h.plain _ _ same
      rcases List.mem_append.1 mem with mem | mem
      · rcases List.mem_append.1 mem with mem | mem
        · exact old f (List.mem_append_left _ mem)
        · obtain rfl := List.mem_singleton.1 mem
          exact (old last (List.mem_append_right _ List.mem_cons_self)).link _ _ _ _
      · obtain rfl := List.mem_singleton.1 mem
        refine plain_newFact admits plain.commit plain.reason plain.dependencies plain.provenance ?_
        rintro t ⟨⟩
        exact plain_digest _

theorem Sound.step (h : s.Sound) {call : Call} (other : ¬ call.RenamesItself) (clean : s.Clean call) :
    (s.step call).Sound := by
  obtain ⟨ps, e, admitted⟩ := adds_step h.chained.wellFormed call other
  rw [e]
  exact admitted.run_invariant h fun t p sound admits => sound.pushed admits.1 (admits.2 clean)

/-- The bytes of the document, which `to_bytes` bounds, fit. -/
def Fits (s : BitemporalOverlay) : Prop :=
  ∀ payload, (s.document.dumps false).encode = some payload → payload.length ≤ MAX_PERSISTENCE_BYTES

/-- The overlay is written, and what is written is read as the same overlay. -/
def Persists (c : Conversions) (s : BitemporalOverlay) : Prop :=
  ∃ data t, s.toBytes = .ok data ∧ fromBytes c data = .ok t ∧ s.Equal t

end BitemporalOverlay

end SimplicioFast
