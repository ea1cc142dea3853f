import SimplicioFast.Lib.Sha256Eval
import SimplicioFast.Plugin.Store

/-!
# Packets that verify

`verify_packet` accepts a packet exactly when its hash is the digest of its other fields.  A packet that is
compiled anew is sealed in this way; one that comes from the cache has its `cache_status` changed behind the
hash, and verifies only when the two texts have the same digest.
-/

namespace SimplicioFast

namespace PluginContext

/-! ## Rejected fields -/

/-- What passes at some depth, after some items, passes nearer to the top and after fewer items. -/
def Eases (f : ℕ → ℕ → Except Raised ℕ) : Prop :=
  ∀ depth items n depth' items', f depth items = .ok n → depth' ≤ depth → items' ≤ items →
    ∃ n' ≤ n, f depth' items' = .ok n'

theorem eases_scalar : Eases fun depth items =>
    if 32 < depth then .error (.pluginContextError "payload_depth_limit" []) else .ok items := by
  intro depth items n depth' items' h hd hi
  dsimp only at h ⊢
  split_ifs at h with deep
  cases h
  exact ⟨items', hi, if_neg (by omega)⟩

mutual

theorem eases_reject : (v : Json) → Eases fun depth items => rejectPrivateFields depth items v
  | .obj fs => by
    intro depth items n depth' items' h hd hi
    simp only [rejectPrivateFields] at h ⊢
    split_ifs at h with deep priv many
    rw [if_neg (by omega), if_neg priv, if_neg (by omega)]
    exact eases_rejectFields fs _ _ _ _ _ h (by omega) (by omega)
  | .arr vs => by
    intro depth items n depth' items' h hd hi
    simp only [rejectPrivateFields] at h ⊢
    split_ifs at h with deep many
    rw [if_neg (by omega), if_neg (by omega)]
    exact eases_rejectItems vs _ _ _ _ _ h (by omega) (by omega)
  | .str s => by
    intro depth items n depth' items' h hd hi
    simp only [rejectPrivateFields] at h ⊢
    split_ifs at h with deep long
    cases h
    exact ⟨items', hi, by rw [if_neg (by omega), if_neg long]⟩
  | .null => eases_scalar
  | .bool _ => eases_scalar
  | .int _ => eases_scalar
  | .float _ => eases_scalar
  | .nonFinite _ => eases_scalar

theorem eases_rejectItems : (vs : List Json) → Eases fun depth items => rejectItems depth items vs
  | [] => fun _ _ _ _ items' h _ hi => ⟨items', by cases h; exact hi, rfl⟩
  | v :: vs => by
    intro depth items n depth' items' h hd hi
    obtain ⟨m, first, rest⟩ := bind_ok.1 h
    obtain ⟨m', le, first'⟩ := eases_reject v _ _ _ _ _ first hd hi
    obtain ⟨n', le', rest'⟩ := eases_rejectItems vs _ _ _ _ _ rest hd le
    exact ⟨n', le', bind_ok.2 ⟨m', first', rest'⟩⟩

theorem eases_rejectFields : (fs : List (PyStr × Json)) → Eases fun depth items => rejectFields depth items fs
  | [] => fun _ _ _ _ items' h _ hi => ⟨items', by cases h; exact hi, rfl⟩
  | (k, v) :: fs => by
    intro depth items n depth' items' h hd hi
    obtain ⟨m, first, rest⟩ := bind_ok.1 h
    obtain ⟨m', le, first'⟩ := eases_reject v _ _ _ _ _ first hd hi
    obtain ⟨n', le', rest'⟩ := eases_rejectFields fs _ _ _ _ _ rest hd le
    exact ⟨n', le', bind_ok.2 ⟨m', first', rest'⟩⟩

end

theorem reject_of_mem {depth items n : ℕ} {k : PyStr} {v : Json} {fs : List (PyStr × Json)}
    (h : rejectFields depth items fs = .ok n) (mem : (k, v) ∈ fs) :
    ∃ i m, rejectPrivateFields depth i v = .ok m := by
  induction fs generalizing items with
  | nil => cases mem
  | cons f fs ih =>
    obtain ⟨m, first, rest⟩ := bind_ok.1 h
    rcases List.mem_cons.1 mem with rfl | mem
    · exact ⟨items, m, first⟩
    · exact ih rest mem

theorem reject_field {n : ℕ} {k : PyStr} {v : Json} {fs : List (PyStr × Json)}
    (h : rejectPrivateFields 0 0 (.obj fs) = .ok n) (mem : (k, v) ∈ fs) :
    ∃ m, rejectPrivateFields 0 0 v = .ok m := by
  simp only [rejectPrivateFields] at h
  split_ifs at h with deep priv many
  obtain ⟨i, m, passed⟩ := reject_of_mem h mem
  obtain ⟨m', -, passed'⟩ := eases_reject v _ _ _ _ _ passed (Nat.zero_le _) (Nat.zero_le i)
  exact ⟨m', passed'⟩

theorem rejectFields_append (depth items : ℕ) (fs gs : List (PyStr × Json)) :
    rejectFields depth items (fs ++ gs) = (rejectFields depth items fs).bind fun n => rejectFields depth n gs := by
  induction fs generalizing items with
  | nil => rfl
  | cons f fs ih =>
    rw [List.cons_append, rejectFields, rejectFields]
    cases rejectField depth items f with
    | error x => rfl
    | ok n => exact ih n

/-! ## Sealed packets -/

variable {p : Packet}

/-- The packet hash is the digest of the other fields. -/
def Packet.Sealed (p : Packet) : Prop := digest (.obj p.unsigned) = .ok p.packetHash

theorem reject_of_digest {v : Json} {d : PyStr} (h : digest v = .ok d) :
    ∃ n, rejectPrivateFields 0 0 v = .ok n := by
  obtain ⟨text, h₁, -⟩ := bind_ok.1 h
  obtain ⟨n, passed, -⟩ := bind_ok.1 h₁
  exact ⟨n, passed⟩

theorem verifyPacket_eq_ok_iff : verifyPacket p.fields = .ok () ↔ p.Sealed := by
  have body : verifyPacket p.fields = (do
      let computed ← digest (.obj p.unsigned)
      check (p.packetHash = computed) "packet_corrupt" p.packetHash
      let _ ← rejectPrivateFields 0 0 (payloadOf p.body.spans p.body.budget.fidelity)
      return ()) := rfl
  rw [body]
  constructor
  · intro h
    obtain ⟨computed, digested, h₁⟩ := bind_ok.1 h
    obtain ⟨_, same, -⟩ := bind_ok.1 h₁
    unfold check at same
    split_ifs at same with e
    rw [Packet.Sealed, digested, of_decide_eq_true e]
  · intro sealed
    obtain ⟨n, passed⟩ := reject_of_digest sealed
    have mem : (("payload" : PyStr), payloadOf p.body.spans p.body.budget.fidelity) ∈ p.unsigned :=
      Dict.mem_of_lookup rfl
    obtain ⟨m, payload⟩ := reject_field passed mem
    refine bind_ok.2 ⟨_, sealed, bind_ok.2 ⟨(), ?_, ?_⟩⟩
    · exact if_pos (decide_eq_true rfl)
    · exact bind_ok.2 ⟨m, payload, rfl⟩

/-! ## Warm packets -/

/-- The text that the packet hash is about. -/
def Packet.text (p : Packet) : Bytes := canonicalText (.obj p.unsigned)

/-- The packet as it is stored and as it comes from the cache have different texts with the same digest. -/
def Packet.Collides (p : Packet) : Prop := p.warm.text ≠ p.text ∧ hexDigest p.warm.text = hexDigest p.text

/-- The fields of the packet with another `cache_status`. -/
def Packet.withStatus (p : Packet) (status : PyStr) : List (PyStr × Json) :=
  p.body.before ++ (("cache_status" : PyStr), Json.str status) ::
    (p.body.behind ++ [(("encoded_bytes" : PyStr), Json.int p.encodedBytes)])

theorem unsigned_eq (p : Packet) : p.unsigned = p.withStatus p.body.cacheStatus := rfl

theorem unsigned_warm (p : Packet) : p.warm.unsigned = p.withStatus "warm" := rfl

theorem reject_around {before behind : List (PyStr × Json)} {k status status' : PyStr}
    (short : status.length ≤ MAX_TEXT) (short' : status'.length ≤ MAX_TEXT) :
    rejectPrivateFields 0 0 (.obj (before ++ (k, .str status) :: behind)) =
      rejectPrivateFields 0 0 (.obj (before ++ (k, .str status') :: behind)) := by
  have one {t : PyStr} (h : t.length ≤ MAX_TEXT) (n : ℕ) :
      rejectFields 1 n ((k, .str t) :: behind) = rejectFields 1 n behind := by
    have passed : rejectPrivateFields 1 n (.str t) = .ok n := by
      rw [rejectPrivateFields, if_neg (by omega), if_neg (by omega)]
    rw [rejectFields, rejectField, passed]
    rfl
  simp only [rejectPrivateFields, rejectFields_append, one short, one short', List.any_append, List.any_cons,
    List.length_append, List.length_cons]

theorem fieldsFinite_append (fs gs : List (PyStr × Json)) :
    Json.fieldsFinite (fs ++ gs) = (Json.fieldsFinite fs && Json.fieldsFinite gs) := by
  induction fs with
  | nil => rfl
  | cons f fs ih => rw [List.cons_append, Json.fieldsFinite, Json.fieldsFinite, ih, Bool.and_assoc]

theorem digest_withStatus {status status' d : PyStr} (short : status.length ≤ MAX_TEXT)
    (short' : status'.length ≤ MAX_TEXT) (h : digest (.obj (p.withStatus status)) = .ok d) :
    digest (.obj (p.withStatus status')) = .ok (hexDigest (canonicalText (.obj (p.withStatus status')))) := by
  obtain ⟨text, h₁, -⟩ := bind_ok.1 h
  obtain ⟨n, passed, h₂⟩ := bind_ok.1 h₁
  obtain ⟨_, finite, -⟩ := bind_ok.1 h₂
  have same : (Json.obj (p.withStatus status')).isFinite = (Json.obj (p.withStatus status)).isFinite := by
    simp only [Json.isFinite, Packet.withStatus, fieldsFinite_append]
    rfl
  refine bind_ok.2 ⟨_, bind_ok.2 ⟨n, ?_, ?_⟩, rfl⟩
  · exact (reject_around short' short).trans passed
  · refine bind_ok.2 ⟨(), ?_, rfl⟩
    rw [same]
    exact finite

theorem digest_eq_ok {v : Json} {d : PyStr} (h : digest v = .ok d) : d = hexDigest (canonicalText v) := by
  obtain ⟨text, h₁, h₂⟩ := bind_ok.1 h
  obtain ⟨n, -, h₃⟩ := bind_ok.1 h₁
  obtain ⟨_, -, h₄⟩ := bind_ok.1 h₃
  cases h₄
  cases h₂
  rfl

theorem text_warm_ne (cold : p.body.cacheStatus = "cold") : p.warm.text ≠ p.text := by
  obtain ⟨text, text', around⟩ := Json.dumps_around true "cache_status" p.body.before
    (p.body.behind ++ [(("encoded_bytes" : PyStr), Json.int p.encodedBytes)])
  have written (status : PyStr) : canonicalText (.obj (p.withStatus status)) =
      PyStr.encodeAscii text ++ (PyStr.encodeAscii (Json.writeStr true status) ++ PyStr.encodeAscii text') := by
    rw [canonicalText, Packet.withStatus, around]
    simp only [PyStr.encodeAscii, List.map_append]
    rfl
  rw [Packet.text, Packet.text, unsigned_warm, unsigned_eq, cold, written, written]
  intro same
  have front := List.append_cancel_left same
  have letters : (119 : UInt8) = 99 := congrArg (fun l => l.getD 1 0) front
  exact absurd letters (by decide)

theorem sealed_warm_iff (cold : p.body.cacheStatus = "cold") (sealed : p.Sealed) :
    p.warm.Sealed ↔ p.Collides := by
  rw [Packet.Sealed, unsigned_eq, cold] at sealed
  have text : p.text = canonicalText (.obj (p.withStatus "cold")) := by rw [Packet.text, unsigned_eq, cold]
  have hash := digest_eq_ok sealed
  have warm : digest (.obj (p.withStatus "warm")) = .ok (hexDigest (canonicalText (.obj (p.withStatus "warm")))) :=
    digest_withStatus (by decide) (by decide) sealed
  have whole : p.warm.Sealed ↔ hexDigest p.warm.text = hexDigest p.text := by
    rw [Packet.Sealed, unsigned_warm, warm, Except.ok.injEq, Packet.text, unsigned_warm, text, ← hash]
    rfl
  rw [whole]
  exact ⟨fun e => ⟨text_warm_ne cold, e⟩, And.right⟩

/-! ## New packets -/

namespace PluginContextStore

variable {request : PluginContextRequest} {found : Located} {s : PluginContextStore}

theorem trim_cacheStatus {maxBytes n : ℕ} {reasons : List PyStr} {body body' : Body}
    {left : List PluginContextSpan} (h : trim maxBytes reasons body left = .ok (body', n)) :
    body'.cacheStatus = body.cacheStatus := by
  induction left generalizing body with
  | nil =>
    obtain ⟨encoded, -, e⟩ := bind_ok.1 h
    cases e
    rfl
  | cons span left ih =>
    obtain ⟨encoded, -, e⟩ := bind_ok.1 h
    split_ifs at e with long
    · have kept := ih e
      exact kept
    · cases e
      rfl

theorem assemble_sealed (h : assemble request found = .ok p) : p.body.cacheStatus = "cold" ∧ p.Sealed := by
  obtain ⟨_, -, h₁⟩ := bind_ok.1 h
  obtain ⟨selected, -, h₂⟩ := bind_ok.1 h₁
  obtain ⟨⟨spans, reasons⟩, -, h₃⟩ := bind_ok.1 h₂
  obtain ⟨⟨body, encoded⟩, trimmed, h₄⟩ := bind_ok.1 h₃
  obtain ⟨_, -, h₅⟩ := bind_ok.1 h₄
  obtain ⟨hash, digested, h₆⟩ := bind_ok.1 h₅
  cases h₆
  exact ⟨trim_cacheStatus trimmed, digested⟩

/-! ## Runs -/

/-- A call of the store. -/
inductive Call
  | loadGeneration (generation repo commit : PyStr) (files : Dict PyStr Bytes)
      (spans : Option (Dict PyStr SpanSpec))
  | pin (taskId sessionId generation : PyStr)
  | applyOverlay (generation overlayId : PyStr) (files : Dict PyStr (Option Bytes))
  | invalidate (changed : List PyStr)
  | compile (request : PluginContextRequest)

def step (s : PluginContextStore) : Call → PluginContextStore
  | .loadGeneration generation repo commit files spans =>
    (s.loadGeneration generation repo commit files spans).2
  | .pin taskId sessionId generation => (s.pin taskId sessionId generation).2
  | .applyOverlay generation overlayId files => (s.applyOverlay generation overlayId files).2
  | .invalidate changed => (s.invalidate changed).2
  | .compile request => (s.compile request).2

/-- A packet that the call returns verifies. -/
def HandsOut (s : PluginContextStore) : Call → Prop
  | .compile request => ∀ p, (s.compile request).1 = .ok p → verifyPacket p.fields = .ok ()
  | _ => True

/-- The call finds its packet in the cache, and changing its status does not leave the digest. -/
def Warms (s : PluginContextStore) : Call → Prop
  | .compile request => ∃ found p, s.locate request = .ok found ∧ s.cache.get? found.cacheKey = some p ∧
      ¬ p.Collides
  | _ => False

/-- Every cached packet satisfies `P`. -/
def Cached (P : Packet → Prop) (s : PluginContextStore) : Prop := ∀ key p, s.cache.get? key = some p → P p

/-- The cached packets are cold and sealed. -/
def Cold : PluginContextStore → Prop := Cached fun p => p.body.cacheStatus = "cold" ∧ p.Sealed

theorem cached_new (P : Packet → Prop) : Cached P new := by
  intro key p cached
  cases cached

theorem Cached.of_cache {P : Packet → Prop} {s s' : PluginContextStore} (h : s.Cached P) (same : s'.cache = s.cache) :
    s'.Cached P := by
  intro key p cached
  rw [same] at cached
  exact h key p cached

theorem Cached.compile {P : Packet → Prop} (h : s.Cached P)
    (assembled : ∀ found p, s.locate request = .ok found → s.cache.get? found.cacheKey = none →
      assemble request found = .ok p → P p) : (s.compile request).2.Cached P := by
  unfold PluginContextStore.compile
  split
  · exact h
  · next found located =>
    split
    · exact h
    · next missed =>
      split
      · exact h
      · next p made =>
        intro key p' cached
        rw [Dict.get?_set] at cached
        split_ifs at cached with here
        · cases cached
          exact assembled found p located missed made
        · exact h key p' cached

theorem Cached.invalidate {P : Packet → Prop} (h : s.Cached P) (changed : List PyStr) :
    (s.invalidate changed).2.Cached P := by
  unfold PluginContextStore.invalidate
  split
  · exact h
  · intro key p cached
    rw [Dict.get?_foldl_erase] at cached
    split_ifs at cached
    exact h key p cached

theorem cache_loadGeneration (generation repo commit : PyStr) (files : Dict PyStr Bytes)
    (spans : Option (Dict PyStr SpanSpec)) :
    (s.loadGeneration generation repo commit files spans).2.cache = s.cache := by
  unfold loadGeneration
  split
  · rfl
  · split_ifs <;> rfl

theorem cache_pin (taskId sessionId generation : PyStr) : (s.pin taskId sessionId generation).2.cache = s.cache := by
  unfold pin
  split <;> rfl

/-- A call keeps what holds of the cached packets, when the packet that it may assemble has it too. -/
theorem Cached.step {P : Packet → Prop} (h : s.Cached P) (call : Call)
    (assembled : ∀ request found p, call = .compile request → s.locate request = .ok found →
      s.cache.get? found.cacheKey = none → assemble request found = .ok p → P p) : (s.step call).Cached P := by
  cases call with
  | loadGeneration generation repo commit files spans => exact h.of_cache (cache_loadGeneration ..)
  | pin taskId sessionId generation => exact h.of_cache (cache_pin ..)
  | applyOverlay generation overlayId files =>
    refine h.of_cache ?_
    simp only [PluginContextStore.step, PluginContextStore.applyOverlay]
    split <;> rfl
  | invalidate changed => exact h.invalidate changed
  | compile request => exact h.compile fun found p => assembled request found p rfl

theorem Cold.step (h : s.Cold) (call : Call) : (s.step call).Cold :=
  Cached.step h call fun _ _ _ _ _ _ made => assemble_sealed made

theorem handsOut_iff (h : s.Cold) (call : Call) : s.HandsOut call ↔ ¬ s.Warms call := by
  cases call with
  | loadGeneration generation repo commit files spans => exact iff_of_true trivial id
  | pin taskId sessionId generation => exact iff_of_true trivial id
  | applyOverlay generation overlayId files => exact iff_of_true trivial id
  | invalidate changed => exact iff_of_true trivial id
  | compile request =>
    simp only [HandsOut, Warms]
    cases located : s.locate request with
    | error x =>
      have raised : (s.compile request).1 = .error x := by rw [PluginContextStore.compile, located]
      refine iff_of_true (fun p e => ?_) ?_
      · rw [raised] at e
        cases e
      · rintro ⟨found', p, ⟨⟩, -⟩
    | ok found =>
      cases cached : s.cache.get? found.cacheKey with
      | some p =>
        obtain ⟨cold, sealed⟩ := h _ _ cached
        have returned : (s.compile request).1 = .ok p.warm := by
          rw [PluginContextStore.compile, located]
          simp only [cached]
        rw [returned]
        constructor
        · rintro verifies ⟨found', p', ⟨⟩, cached', alone⟩
          rw [cached] at cached'
          cases cached'
          exact alone ((sealed_warm_iff cold sealed).1 (verifyPacket_eq_ok_iff.1 (verifies _ rfl)))
        · rintro collides _ ⟨⟩
          refine verifyPacket_eq_ok_iff.2 ((sealed_warm_iff cold sealed).2 ?_)
          by_contra alone
          exact collides ⟨found, p, rfl, cached, alone⟩
      | none =>
        have returned : (s.compile request).1 = assemble request found := by
          rw [PluginContextStore.compile, located]
          simp only [cached]
          cases assemble request found <;> rfl
        refine iff_of_true (fun p e => ?_) ?_
        · rw [returned] at e
          exact verifyPacket_eq_ok_iff.2 (assemble_sealed e).2
        · rintro ⟨found', p, ⟨⟩, cached', -⟩
          rw [cached] at cached'
          cases cached'

/-- In a run of a new store every packet that is handed out verifies exactly when no compilation finds its
packet in the cache, texts that collide apart. -/
theorem along_handsOut_iff (calls : List Call) : Machine.Along step HandsOut new calls ↔
    Machine.Along step (fun s call => ¬ s.Warms call) new calls := by
  refine Machine.along_congr_of_invariant (I := Cold) ?_ (fun _ call cold => cold.step call)
    fun _ call cold => handsOut_iff cold call
  exact cached_new _

theorem compile_again (fresh : s.cache = .empty) (h : (s.compile request).1 = .ok p) :
    ((s.compile request).2.compile request).1 = .ok p.warm := by
  cases located : s.locate request with
  | error x =>
    rw [PluginContextStore.compile, located] at h
    cases h
  | ok found =>
    have missed : s.cache.get? found.cacheKey = none := by rw [fresh, Dict.get?_empty]
    cases assembled : assemble request found with
    | error x =>
      rw [PluginContextStore.compile, located] at h
      simp only [missed, assembled] at h
      cases h
    | ok p' =>
      have whole : s.compile request = (.ok p', { s with
          cache := s.cache.set found.cacheKey p'
          cacheDeps := s.cacheDeps.set found.cacheKey p'.body.sourceHashes.keys }) := by
        rw [PluginContextStore.compile, located]
        simp only [missed, assembled]
      rw [whole] at h ⊢
      cases h
      have located' : ({ s with
          cache := s.cache.set found.cacheKey p
          cacheDeps := s.cacheDeps.set found.cacheKey p.body.sourceHashes.keys } :
            PluginContextStore).locate request = .ok found := located
      rw [PluginContextStore.compile, located']
      simp only [Dict.get?_set_self]

def sampleHandle : PluginContextHandle where
  handle := "h"
  generation := "g"
  sourceRef := "s"
  overlayId := none
  digest := "b93d3f451647a9b13eefc2b0f2fd458f309953cdc34f8527908a1ed591a53a59"
  isText_handle := by decide
  isText_generation := by decide
  isText_sourceRef := by decide
  isText_overlayId := nofun
  sealed := by
    simp only [PluginContext.digest, hexDigest, Sha256.hexdigest_eq]
    decide +kernel

def sampleRequest : PluginContextRequest where
  taskId := "t"
  sessionId := "u"
  handle := sampleHandle
  budget := ⟨1000, 1, 1, .metadata, by decide +kernel, by decide +kernel⟩
  requestedHandles := []
  expectedSourceHashes := none
  cancelled := none
  abi := none
  isText_taskId := by decide +kernel
  isText_sessionId := by decide +kernel
  handles_ne_nil := nofun
  negotiated := rfl

def sampleLoad : Call := .loadGeneration "g" "r" "c" ((Dict.empty : Dict PyStr Bytes).set "a" []) none

def sampleStore : PluginContextStore := Machine.run step new [sampleLoad, .pin "t" "u" "g"]

theorem cache_sampleStore : sampleStore.cache = .empty :=
  (cache_pin "t" "u" "g").trans (cache_loadGeneration "g" "r" "c" _ none)

theorem texts_sampleStore : (sampleStore.compile sampleRequest).1.toOption.any (fun p =>
    hexDigest p.warm.text ≠ hexDigest p.text && p.body.cacheStatus = ("cold" : PyStr) && 950 < p.encodedBytes) =
      true := by
  simp only [hexDigest, Sha256.hexdigest_eq]
  decide +kernel

theorem not_along_handsOut_again (fresh : s.cache = .empty) (texts : (s.compile request).1.toOption.any (fun p =>
    hexDigest p.warm.text ≠ hexDigest p.text && p.body.cacheStatus = ("cold" : PyStr) && 950 < p.encodedBytes) =
      true) :
    ¬ Machine.Along step HandsOut s [.compile request, .compile request] := by
  rintro ⟨first, second, -⟩
  cases compiled : (s.compile request).1 with
  | error x =>
    rw [compiled] at texts
    cases texts
  | ok p =>
    rw [compiled] at texts
    obtain ⟨differ, cold⟩ := Bool.and_eq_true_iff.1 (Bool.and_eq_true_iff.1 texts).1
    have sealed := verifyPacket_eq_ok_iff.1 (first p compiled)
    have warm := verifyPacket_eq_ok_iff.1 (second p.warm (compile_again fresh compiled))
    exact of_decide_eq_true differ ((sealed_warm_iff (of_decide_eq_true cold) sealed).1 warm).2

/-- The second of two compilations of one request hands out a packet that does not verify. -/
theorem not_along_handsOut_twice : ¬ Machine.Along step HandsOut new
    [sampleLoad, .pin "t" "u" "g", .compile sampleRequest, .compile sampleRequest] := by
  intro along
  have compiles : Machine.Along step HandsOut sampleStore [.compile sampleRequest, .compile sampleRequest] :=
    (Machine.along_append.1 along).2
  exact not_along_handsOut_again cache_sampleStore texts_sampleStore compiles

end PluginContextStore

end PluginContext

end SimplicioFast
