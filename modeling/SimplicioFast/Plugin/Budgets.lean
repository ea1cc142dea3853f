import SimplicioFast.Lib.JsonCanonical
import SimplicioFast.Plugin.Verify

/-!
# The budget of a packet

`compile` drops spans until the encoding of the body is at most `max_bytes` long, and adds `encoded_bytes` and
`packet_hash` behind that.  So the packet keeps its budget exactly when the first body that fits leaves the room that
these two fields take (`along_handsWithin_iff`).
-/

namespace SimplicioFast

namespace PluginContext

/-- The length of the encoding that `compile` compares with the budget. -/
def Body.size (b : Body) : ℕ := (canonicalText (.obj b.fields)).length

/-- The length of the encoding of the packet with all its fields. -/
def Packet.size (p : Packet) : ℕ := (canonicalText (.obj p.fields)).length

/-- The packet keeps the budget. -/
def Packet.Within (p : Packet) (budget : PluginContextBudget) : Prop :=
  p.size ≤ budget.maxBytes ∧ p.body.spans.length ≤ budget.maxItems

/-- What `encoded_bytes` of this value and `packet_hash` add to an encoding. -/
def sealBytes (n : ℕ) : ℕ := 98 + (Nat.toDigits 10 n).length

variable {p : Packet} {b body : Body} {maxBytes n : ℕ} {reasons : List PyStr} {left : List PluginContextSpan}
  {request : PluginContextRequest} {found : Located}

/-! ## Sizes -/

theorem length_canonicalText_concat {fs : List (PyStr × Json)} (filled : fs ≠ []) (k : PyStr) (v : Json) :
    (canonicalText (.obj (fs ++ [(k, v)]))).length =
      (canonicalText (.obj fs)).length + ((Json.writeStr true k).length + 2 + (Json.dumps true v).length) := by
  unfold canonicalText PyStr.encodeAscii
  rw [List.length_map, List.length_map, Json.length_dumps_obj true filled,
    Json.length_dumps_obj true (List.concat_ne_nil _ _), List.map_append, List.sum_append, List.map_singleton,
    List.sum_singleton, ← Nat.add_assoc]

theorem length_writeStr_hexDigest (t : Bytes) : (Json.writeStr true (hexDigest t)).length = 66 := by
  have plain (l : List Char) (digits : ∀ c ∈ l, Json.escapeChar true (.scalar c) = [.scalar c]) :
      (PyStr.ofChars l).flatMap (Json.escapeChar true) = PyStr.ofChars l := by
    induction l with
    | nil => rfl
    | cons c l ih =>
      obtain ⟨first, rest⟩ := List.forall_mem_cons.1 digits
      show Json.escapeChar true (.scalar c) ++ (PyStr.ofChars l).flatMap _ = _
      rw [first, ih rest]
      rfl
  rw [Json.writeStr, hexDigest, plain _ (Sha256.forall_mem_hexdigest (by decide) t), List.length_cons,
    List.length_append, PyStr.ofChars, List.length_map, Sha256.length_hexdigest, List.length_singleton]

theorem length_dumps_natCast (n : ℕ) : (Json.dumps true (.int n)).length = (Nat.toDigits 10 n).length := by
  have positive : ¬ (n : ℤ) < 0 := by omega
  show (Json.writeInt n).length = _
  rw [Json.writeInt, if_neg positive, List.nil_append, Int.natAbs_natCast, PyStr.ofChars, List.length_map]

theorem size_of_sealed (sealed : p.Sealed) (encoded : p.encodedBytes = p.body.size) :
    p.size = p.body.size + sealBytes p.body.size := by
  have hash : (Json.dumps true (.str p.packetHash)).length = 66 := by
    rw [digest_eq_ok sealed]
    exact length_writeStr_hexDigest _
  have keys : (Json.writeStr true "encoded_bytes").length = 15 ∧ (Json.writeStr true "packet_hash").length = 13 := by
    decide +kernel
  have filled : p.body.fields ≠ [] := by
    unfold Body.fields
    exact List.append_ne_nil_of_right_ne_nil _ (List.cons_ne_nil _ _)
  unfold sealBytes Packet.size Packet.fields Packet.unsigned
  rw [length_canonicalText_concat (List.concat_ne_nil _ _), length_canonicalText_concat filled, encoded, length_dumps_natCast, hash,
    keys.1, keys.2, Body.size]
  omega

theorem size_warm (cold : p.body.cacheStatus = "cold") : p.warm.size = p.size := by
  obtain ⟨text, text', around⟩ := Json.dumps_around true "cache_status" p.body.before
    (p.body.behind ++ [(("encoded_bytes" : PyStr), Json.int p.encodedBytes), ("packet_hash", .str p.packetHash)])
  have written (q : Packet) (status : PyStr) (same : q.fields = p.body.before ++ (("cache_status" : PyStr),
      Json.str status) :: (p.body.behind ++ [(("encoded_bytes" : PyStr), Json.int p.encodedBytes),
        ("packet_hash", .str p.packetHash)])) :
      q.size = text.length + ((Json.writeStr true status).length + text'.length) := by
    rw [Packet.size, canonicalText, PyStr.encodeAscii, List.length_map, same, around, List.length_append,
      List.length_append]
    rfl
  rw [written p.warm "warm" rfl, written p "cold" (by rw [← cold]; rfl)]
  rfl

/-! ## The bodies that are tried -/

/-- The bodies that `trim` encodes, the one with the most spans first. -/
def tried (reasons : List PyStr) (body : Body) : List PluginContextSpan → List Body
  | [] => [body]
  | _ :: rest => body :: tried reasons { body with
      spans := rest.reverse
      truncated := true
      truncationReasons := PyStr.sortedSet (reasons ++ [("byte_budget" : PyStr)]) } rest

namespace PluginContextStore

theorem canonical_eq_ok {v : Json} {text : Bytes} (h : canonical v = .ok text) : text = canonicalText v := by
  obtain ⟨_, -, h⟩ := bind_ok.1 h
  obtain ⟨_, -, h⟩ := bind_ok.1 h
  cases h
  rfl

/-- The first body that fits is the one that `trim` returns. -/
theorem trim_eq_ok (h : trim maxBytes reasons body left = .ok (b, n)) (fits : n ≤ maxBytes) :
    n = b.size ∧ (tried reasons body left).find? (fun b => b.size ≤ maxBytes) = some b := by
  induction left generalizing body with
  | nil =>
    obtain ⟨encoded, written, e⟩ := bind_ok.1 h
    have size : encoded.length = body.size := by rw [Body.size, canonical_eq_ok written]
    cases e
    exact ⟨size, List.find?_cons_of_pos (decide_eq_true (size ▸ fits))⟩
  | cons span rest ih =>
    obtain ⟨encoded, written, e⟩ := bind_ok.1 h
    have size : encoded.length = body.size := by rw [Body.size, canonical_eq_ok written]
    unfold tried
    split_ifs at e with long
    · rw [size] at long
      rw [List.find?_cons_of_neg (by rw [decide_eq_true_eq]; exact not_le.2 long)]
      exact ih e
    · cases e
      exact ⟨size, List.find?_cons_of_pos (decide_eq_true (size ▸ fits))⟩

theorem kept_of_mem_tried (h : b ∈ tried reasons body left) (spans : body.spans.length ≤ left.length) :
    b.budget = body.budget ∧ b.spans.length ≤ left.length := by
  induction left generalizing body with
  | nil =>
    obtain rfl := List.mem_singleton.1 h
    exact ⟨rfl, spans⟩
  | cons span rest ih =>
    rcases List.mem_cons.1 h with rfl | later
    · exact ⟨rfl, spans⟩
    · obtain ⟨budget, fewer⟩ := ih later (le_of_eq List.length_reverse)
      exact ⟨budget, fewer.trans (Nat.le_succ _)⟩

theorem length_boundFrom {record : GenerationRecord} {view : View} {budget : PluginContextBudget}
    {overlayId : Option PyStr} {handles : List PyStr} {spans spans' : List PluginContextSpan} {used : ℕ}
    {reasons' : List PyStr} (h : boundFrom record view budget overlayId handles spans reasons used =
      .ok (spans', reasons')) (small : spans.length ≤ budget.maxItems) : spans'.length ≤ budget.maxItems := by
  induction handles generalizing spans reasons used with
  | nil =>
    cases h
    exact small
  | cons handle rest ih =>
    unfold boundFrom at h
    split_ifs at h with many
    · cases h
      exact small
    · split at h
      · cases h
      · split at h
        · cases h
        · dsimp only at h
          split_ifs at h
          all_goals first
            | cases h
              exact small
            | refine ih h ?_
              rw [List.length_append, List.length_singleton]
              omega

/-! ## Assembled packets -/

/-- The bodies that `assemble` tries. -/
def triedBy (request : PluginContextRequest) (found : Located) : Except Raised (List Body) := do
  let selected ← selectHandles found.record request
  let (spans, reasons) ←
    boundFrom found.record found.view request.budget request.handle.overlayId selected [] [] 0
  let reasons := PyStr.sortedSet reasons
  return tried reasons (bodyOf request found.record spans reasons) spans.reverse

/-- The first body that fits the budget leaves the room for `encoded_bytes` and `packet_hash`. -/
def HasRoom (request : PluginContextRequest) (found : Located) : Prop :=
  ∀ bodies b, triedBy request found = .ok bodies →
    bodies.find? (fun b => b.size ≤ request.budget.maxBytes) = some b →
      b.size + sealBytes b.size ≤ request.budget.maxBytes

theorem assemble_eq_ok (h : assemble request found = .ok p) : (∃ bodies, triedBy request found = .ok bodies ∧
    bodies.find? (fun b => b.size ≤ request.budget.maxBytes) = some p.body) ∧ p.encodedBytes = p.body.size ∧
      p.body.budget = request.budget ∧ p.body.spans.length ≤ request.budget.maxItems := by
  obtain ⟨_, -, h⟩ := bind_ok.1 h
  obtain ⟨selected, handles, h⟩ := bind_ok.1 h
  obtain ⟨⟨spans, reasons⟩, bound, h⟩ := bind_ok.1 h
  obtain ⟨⟨body, encoded⟩, trimmed, h⟩ := bind_ok.1 h
  obtain ⟨_, fits, h⟩ := bind_ok.1 h
  obtain ⟨hash, -, h⟩ := bind_ok.1 h
  cases h
  unfold check at fits
  split_ifs at fits with small
  obtain ⟨size, first⟩ := trim_eq_ok trimmed (of_decide_eq_true small)
  have few := length_boundFrom bound (Nat.zero_le _)
  obtain ⟨budget, fewer⟩ := kept_of_mem_tried (List.mem_of_find?_eq_some first) (ge_of_eq List.length_reverse)
  refine ⟨⟨_, bind_ok.2 ⟨selected, handles, bind_ok.2 ⟨_, bound, rfl⟩⟩, first⟩, size, budget, fewer.trans ?_⟩
  rw [List.length_reverse]
  exact few

theorem within_iff_hasRoom (h : assemble request found = .ok p) : p.Within request.budget ↔ HasRoom request found := by
  obtain ⟨⟨bodies, made, first⟩, encoded, -, few⟩ := assemble_eq_ok h
  unfold Packet.Within
  rw [size_of_sealed (assemble_sealed h).2 encoded]
  constructor
  · rintro ⟨small, -⟩ bodies' b made' first'
    cases made.symm.trans made'
    cases first.symm.trans first'
    exact small
  · exact fun room => ⟨room bodies p.body made first, few⟩

/-! ## Runs -/

variable {s : PluginContextStore}

/-- A packet that the call returns keeps the budget of the call. -/
def HandsWithin (s : PluginContextStore) : Call → Prop
  | .compile request => ∀ p, (s.compile request).1 = .ok p → p.Within request.budget
  | _ => True

/-- A packet that the call assembles has room; one that it finds was made for the same budget, or keeps this one. -/
def Roomy (s : PluginContextStore) : Call → Prop
  | .compile request => ∀ found, s.locate request = .ok found →
    match s.cache.get? found.cacheKey with
    | some p => p.body.budget = request.budget ∨ p.Within request.budget
    | none => ∀ p, assemble request found = .ok p → HasRoom request found
  | _ => True

/-- The cached packets are cold and keep their budgets. -/
def Kept : PluginContextStore → Prop := Cached fun p => p.body.cacheStatus = "cold" ∧ p.Within p.body.budget

theorem within_warm {budget : PluginContextBudget} (cold : p.body.cacheStatus = "cold") :
    p.warm.Within budget ↔ p.Within budget := by
  unfold Packet.Within
  rw [size_warm cold]
  rfl

theorem handsWithin_iff (h : s.Kept) (call : Call) : s.HandsWithin call ↔ s.Roomy call := by
  cases call with
  | compile request =>
    unfold HandsWithin Roomy PluginContextStore.compile
    dsimp only
    cases located : s.locate request with
    | error x => exact iff_of_true nofun nofun
    | ok found =>
      dsimp only
      cases cached : s.cache.get? found.cacheKey with
      | some p =>
        obtain ⟨cold, within⟩ := h _ p cached
        dsimp only
        constructor
        · rintro returned _ ⟨⟩
          rw [cached]
          exact .inr ((within_warm cold).1 (returned p.warm rfl))
        · rintro roomy _ ⟨⟩
          have held := roomy found rfl
          rw [cached] at held
          refine (within_warm cold).2 (held.elim (fun same => ?_) id)
          rwa [← same]
      | none =>
        dsimp only
        cases made : assemble request found with
        | error x =>
          refine iff_of_true nofun ?_
          rintro _ ⟨⟩
          rw [cached]
          intro p made'
          cases made.symm.trans made'
        | ok p =>
          constructor
          · rintro returned _ ⟨⟩
            rw [cached]
            intro p' made'
            cases made.symm.trans made'
            exact (within_iff_hasRoom made).1 (returned p rfl)
          · rintro roomy _ ⟨⟩
            have room := roomy found rfl
            rw [cached] at room
            exact (within_iff_hasRoom made).2 (room p made)
  | _ => exact Iff.rfl

theorem Kept.step (h : s.Kept) {call : Call} (within : s.HandsWithin call) : (s.step call).Kept := by
  refine Cached.step h call fun request found p called located missed made => ?_
  subst called
  refine ⟨(assemble_sealed made).1, ?_⟩
  rw [(assemble_eq_ok made).2.2.1]
  apply within
  unfold PluginContextStore.compile
  rw [located]
  dsimp only
  rw [missed, made]

/-- In a run of a new store every packet that is handed out keeps its budget exactly when every packet that is
assembled has room. -/
theorem along_handsWithin_iff (calls : List Call) :
    Machine.Along step HandsWithin new calls ↔ Machine.Along step Roomy new calls := by
  constructor
  · exact fun along => along.imp_of_invariant (I := Kept) (cached_new _) (fun _ _ kept within => kept.step within)
      fun _ call kept within => (handsWithin_iff kept call).1 within
  · exact fun along => along.imp_of_invariant (I := Kept) (cached_new _)
      (fun _ call kept roomy => kept.step ((handsWithin_iff kept call).2 roomy))
      fun _ call kept roomy => (handsWithin_iff kept call).2 roomy

theorem assemble_of_compile (fresh : s.cache = .empty) (h : (s.compile request).1 = .ok p) :
    ∃ found, assemble request found = .ok p := by
  unfold PluginContextStore.compile at h
  cases located : s.locate request with
  | error x =>
    rw [located] at h
    cases h
  | ok found =>
    rw [located] at h
    dsimp only at h
    rw [fresh, Dict.get?_empty] at h
    cases made : assemble request found with
    | error x =>
      rw [made] at h
      cases h
    | ok p' =>
      rw [made] at h
      cases h
      exact ⟨found, made⟩

/-- The body fits 1000 bytes, and the packet takes more than that. -/
theorem not_along_handsWithin_sampleRequest :
    ¬ Machine.Along step HandsWithin new [sampleLoad, .pin "t" "u" "g", .compile sampleRequest] := by
  rintro ⟨-, -, within, -⟩
  change sampleStore.HandsWithin (.compile sampleRequest) at within
  have sample := texts_sampleStore
  cases compiled : (sampleStore.compile sampleRequest).1 with
  | error x =>
    rw [compiled] at sample
    cases sample
  | ok p =>
    rw [compiled] at sample
    have long : 950 < p.encodedBytes := of_decide_eq_true (Bool.and_eq_true_iff.1 sample).2
    obtain ⟨found, made⟩ := assemble_of_compile cache_sampleStore compiled
    obtain ⟨-, encoded, -⟩ := assemble_eq_ok made
    have small : p.size ≤ 1000 := (within p compiled).1
    rw [size_of_sealed (assemble_sealed made).2 encoded, ← encoded, sealBytes] at small
    omega

end PluginContextStore

end PluginContext

end SimplicioFast
