import Mathlib.Data.List.TakeWhile
import SimplicioFast.ChangeSet.DecodeTotal

/-!
# Change sets written and read back

`encode` writes the dictionary of a change set and of each of its operations, and `decode_binary` hands what it reads to
`from_dict`.  Most entries come back as they were, as the checks of `from_dict` do not change what they have returned.
`survives_iff` says which change sets come back.
-/

namespace SimplicioFast

/-! ## Lists of calls -/

theorem Except.exists_of_mem_mapM.{u, v} {ε : Type u} {α : Type*} {β : Type v} {f : α → Except ε β} {l : List α}
    {m : List β} {b : β} (h : l.mapM f = .ok m) (mem : b ∈ m) : ∃ a ∈ l, f a = .ok b := by
  rw [Except.mapM_eq_ok_iff] at h
  induction h with
  | nil => cases mem
  | @cons a b' l m first _ ih =>
    rcases List.mem_cons.1 mem with rfl | later
    · exact ⟨a, List.mem_cons_self, first⟩
    · obtain ⟨a', inside, made⟩ := ih later
      exact ⟨a', .tail _ inside, made⟩

namespace PyStr

/-! ## Texts that the checks return -/

theorem unpaired_of_not_isHigh {s : PyStr} (h : ∀ c ∈ s, ¬ c.IsHigh) : s.Unpaired := by
  induction s with
  | nil => exact .nil
  | cons c s ih =>
    obtain ⟨first, rest⟩ := List.forall_mem_cons.1 h
    exact unpaired_cons (fun _ _ pair => first pair.1) (ih rest)

/-- `str.replace` of one character by another. -/
theorem replace_singleton (c d : PyChar) (s : PyStr) : replace [c] [d] s = s.map fun e => if e = c then d else e := by
  unfold replace
  induction s with
  | nil => rfl
  | cons e s ih =>
    rw [replaceFrom, List.map_cons]
    by_cases same : e = c
    · subst same
      rw [if_pos (by simp), if_pos rfl]
      exact congrArg (d :: ·) ih
    · have other : ¬ ([c] : PyStr).isPrefixOf (e :: s) = true := by simp [List.isPrefixOf, Ne.symm same]
      rw [if_neg other, if_neg same, ih]

theorem unpaired_of_isSha256 {s : PyStr} (h : s.isSha256 = true) : s.Unpaired := by
  rw [isSha256, Bool.and_eq_true, List.all_eq_true] at h
  refine unpaired_of_not_isHigh fun c mem => ?_
  cases c with
  | scalar c => exact PyChar.not_isHigh_scalar c
  | surrogate n => cases h.2 _ mem

theorem asciiCasefold_of_isSha256 {s : PyStr} (h : s.isSha256 = true) : s.asciiCasefold = s := by
  rw [isSha256, Bool.and_eq_true, List.all_eq_true] at h
  unfold asciiCasefold
  conv_rhs => rw [← List.map_id s]
  refine List.map_congr_left fun c mem => ?_
  have digit := h.2 c mem
  cases c with
  | surrogate n => rfl
  | scalar c =>
    refine congrArg PyChar.scalar (dif_neg fun upper => ?_)
    have low : (65 : ℕ) ≤ c.val.toNat := upper.1
    have high : c.val.toNat ≤ 90 := upper.2
    simp only [Bool.or_eq_true, Char.isDigit, Bool.and_eq_true, decide_eq_true_eq] at digit
    rcases digit with ⟨-, nine⟩ | ⟨a, -⟩
    · have : c.val.toNat ≤ 57 := nine
      omega
    · have : 97 ≤ c.val.toNat := a
      omega

end PyStr

namespace ChangeSet

variable {s t reason : PyStr}

/-- What a path is that `_path` returns. -/
structure IsPath (t : PyStr) : Prop where
  ne_nil : t ≠ []
  no_nul : PyChar.scalar '\x00' ∉ t
  no_colon : PyChar.scalar ':' ∉ t
  no_backslash : PyChar.scalar '\\' ∉ t
  parts : ([] : PyStr) ∉ t.splitOn (.scalar '/') ∧ ("." : PyStr) ∉ t.splitOn (.scalar '/') ∧
    (".." : PyStr) ∉ t.splitOn (.scalar '/')

/-- The character that `_path` writes for a character. -/
def slash (c : PyChar) : PyChar := if c = .scalar '\\' then .scalar '/' else c

theorem replace_backslash (s : PyStr) : PyStr.replace "\\" "/" s = s.map slash := PyStr.replace_singleton _ _ s

example : PyStr.replace "\\" "/" "a\\b" = ("a/b" : PyStr) := by decide +kernel

theorem map_slash_of_notMem (h : PyChar.scalar '\\' ∉ s) : s.map slash = s := by
  conv_rhs => rw [← List.map_id s]
  refine List.map_congr_left fun c mem => if_neg ?_
  rintro rfl
  exact h mem

theorem IsPath.checkPath (h : IsPath t) : ChangeSet.checkPath t = .ok t := by
  unfold ChangeSet.checkPath
  dsimp only
  rw [replace_backslash, map_slash_of_notMem h.no_backslash, if_neg, if_neg, if_neg h.parts.1]
  · rintro (mem | mem)
    · exact h.parts.2.2 mem
    · exact h.parts.2.1 mem
  · rintro (nil | mem | mem)
    · exact h.ne_nil nil
    · exact h.no_nul mem
    · exact h.no_colon mem

theorem checkSha_of_isSha256 (h : s.isSha256 = true) : checkSha (some (.str s)) = .ok (some s) := by
  unfold checkSha
  dsimp only
  rw [PyStr.asciiCasefold_of_isSha256 h, if_pos h]

theorem isSha256_of_checkSha {value : Option Json} (h : checkSha value = .ok (some s)) : s.isSha256 = true := by
  unfold checkSha at h
  split at h
  · cases h
  · split_ifs at h with digest
    cases h
    exact digest
  · cases h

end ChangeSet

open ChangeSet

namespace Base64

theorem value?_eq_none_of_isHigh {c : PyChar} (h : c.IsHigh) : value? c = none := by
  obtain ⟨low, -⟩ := h
  unfold value?
  dsimp only
  rw [if_neg (by omega), if_neg (by omega), if_neg (by omega), if_neg (by omega), if_neg (by omega)]

theorem not_isHigh_of_decode : (s : PyStr) → (decode s).isSome = true → ∀ c ∈ s, ¬ c.IsHigh
  | [], _ => fun _ mem => by cases mem
  | [_], h => by cases h
  | [_, _], h => by cases h
  | [_, _, _], h => by cases h
  | a :: b :: c :: d :: rest, h => by
    have pad : ¬ (PyChar.scalar '=').IsHigh := PyChar.not_isHigh_scalar _
    have first : ¬ a.IsHigh := by
      intro high
      simp [decode, value?_eq_none_of_isHigh high] at h
    have second : ¬ b.IsHigh := by
      intro high
      simp [decode, value?_eq_none_of_isHigh high] at h
    have third : ¬ c.IsHigh := by
      intro high
      have other : c ≠ .scalar '=' := by
        rintro rfl
        exact pad high
      simp [decode, value?_eq_none_of_isHigh high, other] at h
    have fourth : ¬ d.IsHigh := by
      intro high
      have other : d ≠ .scalar '=' := by
        rintro rfl
        exact pad high
      simp [decode, value?_eq_none_of_isHigh high, other] at h
    have others : ∀ e ∈ rest, ¬ e.IsHigh := by
      by_cases last : rest = []
      · rw [last]
        exact fun _ mem => by cases mem
      · refine not_isHigh_of_decode rest ?_
        by_contra none
        rw [Option.not_isSome_iff_eq_none] at none
        simp [decode, none, last] at h
    exact List.forall_mem_cons.2 ⟨first, List.forall_mem_cons.2 ⟨second, List.forall_mem_cons.2 ⟨third,
      List.forall_mem_cons.2 ⟨fourth, others⟩⟩⟩⟩

end Base64

/-! ## Entries -/

namespace ChangeOperation

theorem find_entry (k key : PyStr) (value : Option Json) :
    Dict.find (entry k value) key = if key = k then value else none := by
  cases value with
  | none => exact (ite_self _).symm
  | some v => exact Dict.find_cons _ _ _ _

variable {l : List (PyStr × Option Json)} {k : PyStr} {v : Option Json}

/-- The entries of a dictionary, some of which may be left out. -/
def fieldsOf (l : List (PyStr × Option Json)) : List (PyStr × Json) := l.flatMap fun p => entry p.1 p.2

theorem find_fieldsOf_of_notMem (h : k ∉ l.map Prod.fst) : Dict.find (fieldsOf l) k = none := by
  induction l with
  | nil => rfl
  | cons p l ih =>
    rw [List.map_cons, List.mem_cons, not_or] at h
    have front : fieldsOf (p :: l) = entry p.1 p.2 ++ fieldsOf l := List.flatMap_cons
    rw [front, Dict.find_append, find_entry, if_neg h.1, ih h.2]
    rfl

theorem find_fieldsOf (nodup : (l.map Prod.fst).Nodup) (mem : (k, v) ∈ l) : Dict.find (fieldsOf l) k = v := by
  induction l with
  | nil => cases mem
  | cons p l ih =>
    rw [List.map_cons, List.nodup_cons] at nodup
    have front : fieldsOf (p :: l) = entry p.1 p.2 ++ fieldsOf l := List.flatMap_cons
    rw [front, Dict.find_append, find_entry]
    rcases List.mem_cons.1 mem with rfl | later
    · rw [if_pos rfl, find_fieldsOf_of_notMem nodup.1, Option.or_none]
    · have other : k ≠ p.1 := by
        rintro rfl
        exact nodup.1 (List.mem_map.2 ⟨_, later, rfl⟩)
      rw [if_neg other, Option.none_or, ih nodup.2 later]

theorem isFinite_fieldsOf (h : ∀ p ∈ l, ∀ v ∈ p.2, v.isFinite = true) : (Json.obj (fieldsOf l)).isFinite = true := by
  refine Json.fieldsFinite_iff.2 fun f mem => ?_
  obtain ⟨p, inside, mem⟩ := List.mem_flatMap.1 mem
  obtain ⟨v, given, rfl⟩ := Option.map_eq_some_iff.1 (Option.mem_toList.1 mem)
  exact h p inside v given

variable (codecs : Codecs) (o : ChangeOperation)

/-- The entries of `to_dict`, with the text of the content. -/
def entries (content : Option PyStr) : List (PyStr × Option Json) :=
  [("op", some (.str o.op.name)), ("path", some (.str o.path)), ("before_sha256", some (Json.optStr o.beforeSha256)),
    ("after_sha256", some (Json.optStr o.afterSha256)), ("dest", o.dest.map .str),
    ("content_b64", o.contentB64.map .str), ("content", content.map .str), ("encoding", o.encoding.map .str),
    ("line_map", o.lineMap.map LineMap.toJson), ("line_map_sha256", o.lineMap.map fun _ => Json.optStr o.lineMapSha256)]

/-- The keys of `to_dict`. -/
def keys : List PyStr :=
  ["op", "path", "before_sha256", "after_sha256", "dest", "content_b64", "content", "encoding", "line_map",
    "line_map_sha256"]

theorem nodup_keys : keys.Nodup := by decide

theorem unpaired_keys : ∀ k ∈ keys, k.Unpaired := by
  intro k mem
  simp only [keys, List.mem_cons, List.not_mem_nil, or_false] at mem
  rcases mem with rfl | rfl | rfl | rfl | rfl | rfl | rfl | rfl | rfl | rfl <;> exact PyStr.unpaired_ofChars _

variable {codecs o}

theorem toDict_eq_ok_iff {d : Json} : o.toDict codecs = .ok d ↔
    ∃ content, o.decodedContent codecs = .ok content ∧ d = .obj (fieldsOf (o.entries content)) := by
  have same (content : Option PyStr) : fieldsOf (o.entries content) =
      entry "op" (some (.str o.op.name)) ++ entry "path" (some (.str o.path)) ++
      entry "before_sha256" (some (Json.optStr o.beforeSha256)) ++
      entry "after_sha256" (some (Json.optStr o.afterSha256)) ++
      entry "dest" (o.dest.map .str) ++ entry "content_b64" (o.contentB64.map .str) ++
      entry "content" (content.map .str) ++ entry "encoding" (o.encoding.map .str) ++
      entry "line_map" (o.lineMap.map LineMap.toJson) ++
      entry "line_map_sha256" (o.lineMap.map fun _ => Json.optStr o.lineMapSha256) := by
    simp only [fieldsOf, entries, List.flatMap_cons, List.flatMap_nil, List.append_assoc, List.append_nil]
  constructor
  · intro h
    obtain ⟨content, decoded, h⟩ := bind_ok.1 h
    refine ⟨content, decoded, ?_⟩
    rw [same]
    exact (Except.ok.inj h).symm
  · rintro ⟨content, decoded, rfl⟩
    refine bind_ok.2 ⟨content, decoded, ?_⟩
    rw [same]
    rfl

/-- The entries that are read of the text of an operation. -/
structure ReadBack (o : ChangeOperation) (content : Option PyStr) (ws : List (PyStr × Json)) : Prop where
  found : ∀ k v, (k, v) ∈ o.entries content → Dict.find ws k = v.map fun w => Json.reread (Json.sortKeys w)
  others : ∀ k, k ∉ keys → Dict.find ws k = none

/-- An operation all of whose entries come back. -/
structure Plain (o : ChangeOperation) : Prop where
  path : o.path.Unpaired
  dest : ∀ d ∈ o.dest, d.Unpaired
  encoding : ∀ e ∈ o.encoding, e.Unpaired
  /-- The hash of a line map is written with a line map only. -/
  hash : o.op ≠ .replaceRange → o.lineMapSha256 = none

variable {fs ws : List (PyStr × Json)} {content : Option PyStr}

namespace ReadBack

theorem checkOp (h : o.ReadBack content ws) : ChangeOperation.checkOp ws = .ok o.op := by
  have found := h.found "op" (some (.str o.op.name)) (by simp [entries])
  unfold ChangeOperation.checkOp
  rw [found]
  cases o.op <;> decide

theorem given_str {k : PyStr} {s : PyStr} (h : Dict.find ws k = some (.str s)) : given ws k = some (.str s) := by
  unfold given
  rw [h]

theorem given_none {k : PyStr} (h : Dict.find ws k = none) : given ws k = none := by
  unfold given
  rw [h]

theorem sha {k : PyStr} {digest : Option PyStr} (found : Dict.find ws k = some (Json.reread (Json.sortKeys (Json.optStr digest))))
    (original : checkSha (given fs k) = .ok digest) : checkSha (given ws k) = .ok digest := by
  cases digest with
  | none =>
    have missing : given ws k = none := by
      unfold given
      rw [found]
      rfl
    rw [missing]
    rfl
  | some s =>
    have hex := isSha256_of_checkSha original
    rw [given_str (s := s.joinPairs) found, PyStr.joinPairs_of_unpaired (PyStr.unpaired_of_isSha256 hex)]
    exact checkSha_of_isSha256 hex

theorem checkContent (h : o.ReadBack content ws) (parsed : ParsedFrom fs o)
    (decoded : o.decodedContent codecs = .ok content) : ChangeOperation.checkContent ws = .ok o.contentB64 := by
  have found := h.found "content_b64" (o.contentB64.map .str) (by simp [entries])
  have text := h.found "content" (content.map .str) (by simp [entries])
  have original := parsed.content
  unfold ChangeOperation.checkContent
  cases base : o.contentB64 with
  | none =>
    rw [base] at found
    have nothing : content = none := by
      unfold decodedContent ChangeOperation.content at decoded
      rw [base] at decoded
      exact (Except.ok.inj decoded).symm
    rw [nothing] at text
    rw [given_none found, given_none text]
  | some s =>
    rw [base] at found original
    have valid := checkContent_eq_ok original
    have unpaired := PyStr.unpaired_of_not_isHigh (Base64.not_isHigh_of_decode s valid)
    rw [given_str (s := s.joinPairs) found, PyStr.joinPairs_of_unpaired unpaired]
    exact if_pos valid

end ReadBack

theorem isFinite_toDict {d : Json} (h : o.toDict codecs = .ok d) : d.isFinite = true := by
  obtain ⟨content, -, rfl⟩ := toDict_eq_ok_iff.1 h
  have digest (s : Option PyStr) : (Json.optStr s).isFinite = true := by cases s <;> rfl
  refine isFinite_fieldsOf ?_
  simp only [entries, List.forall_mem_cons]
  refine ⟨?_, ?_, ?_, ?_, ?_, ?_, ?_, ?_, ?_, ?_, fun _ mem => by cases mem⟩
  · simp [Json.isFinite]
  · simp [Json.isFinite]
  · simp [digest]
  · simp [digest]
  · simp [Json.isFinite]
  · simp [Json.isFinite]
  · simp [Json.isFinite]
  · simp [Json.isFinite]
  · simp [Json.isFinite, LineMap.toJson, Json.fieldsFinite, Json.fieldFinite]
  · simp [digest]

end ChangeOperation

/-! ## The bytes of a change set -/

namespace BinaryChangeSet

variable {codecs : Codecs} {c : BinaryChangeSet}

theorem canonical_eq_ok_iff {v : Json} {b : Bytes} :
    ChangeSet.canonical v = .ok b ↔ v.isFinite = true ∧ b = PyStr.encodeAscii (v.dumps true) := by
  unfold ChangeSet.canonical
  split_ifs with finite
  · exact ⟨fun h => ⟨finite, (Except.ok.inj h).symm⟩, fun h => congrArg Except.ok h.2.symm⟩
  · exact iff_of_false (fun h => by cases h) fun h => finite h.1

theorem packU32_eq_ok_iff {n : ℕ} {b : Bytes} : packU32 n = .ok b ↔ n < 2 ^ 32 ∧ b = Bytes.packBE 4 n := by
  unfold packU32
  split_ifs with small
  · exact ⟨fun h => ⟨small, (Except.ok.inj h).symm⟩, fun h => congrArg Except.ok h.2.symm⟩
  · exact iff_of_false (fun h => by cases h) fun h => small h.1

/-- The text of a dictionary, as it stands in the byte string. -/
def text (d : Json) : Bytes := PyStr.encodeAscii (d.dumps true)

theorem frame_eq_ok_iff {o : ChangeOperation} {b : Bytes} : frame codecs o = .ok b ↔
    ∃ d, o.toDict codecs = .ok d ∧ (text d).length < 2 ^ 32 ∧ b = framed (text d) := by
  constructor
  · intro h
    obtain ⟨d, hd, h⟩ := bind_ok.1 h
    obtain ⟨payload, written, h⟩ := bind_ok.1 h
    obtain ⟨size, packed, h⟩ := bind_ok.1 h
    obtain ⟨-, rfl⟩ := canonical_eq_ok_iff.1 written
    obtain ⟨small, rfl⟩ := packU32_eq_ok_iff.1 packed
    exact ⟨d, hd, small, (Except.ok.inj h).symm⟩
  · rintro ⟨d, hd, small, rfl⟩
    exact bind_ok.2 ⟨d, hd, bind_ok.2 ⟨_, canonical_eq_ok_iff.2
      ⟨ChangeOperation.isFinite_toDict hd, rfl⟩, bind_ok.2 ⟨_, packU32_eq_ok_iff.2 ⟨small, rfl⟩, rfl⟩⟩⟩

/-- The texts are short enough for lengths of four bytes. -/
structure Fits (d : Json) (ds : List Json) : Prop where
  metadata : (text d).length < 2 ^ 32
  count : ds.length < 2 ^ 32
  records : ∀ e ∈ ds, (text e).length < 2 ^ 32
  whole : (ds.flatMap fun e => framed (text e)).length < 2 ^ 32

variable (c) in
/-- The entries of `to_dict`. -/
def entries (ds : List Json) (id : PyStr) : List (PyStr × Option Json) :=
  [("schema", some (.str SCHEMA)), ("repository", some (.str c.repository)),
    ("base_generation", some (.str c.baseGeneration)), ("overlay_generation", some (.str c.overlayGeneration)),
    ("attempt", some (.str c.attempt)), ("worktree_id", some (.str c.worktreeId)), ("lease_id", some (.str c.leaseId)),
    ("fencing_token", some (.str c.fencingToken)), ("allowed_paths", some (.arr (c.allowedPaths.map .str))),
    ("operations", some (.arr ds)), ("verification_commands", some (.arr (c.verificationCommands.map .str))),
    ("changeset_id", some (.str id))]

/-- The keys of `to_dict`. -/
def keys : List PyStr :=
  ["schema", "repository", "base_generation", "overlay_generation", "attempt", "worktree_id", "lease_id",
    "fencing_token", "allowed_paths", "operations", "verification_commands", "changeset_id"]

theorem nodup_keys : keys.Nodup := by decide

theorem unpaired_keys : ∀ k ∈ keys, k.Unpaired := by
  intro k mem
  simp only [keys, List.mem_cons, List.not_mem_nil, or_false] at mem
  rcases mem with rfl | rfl | rfl | rfl | rfl | rfl | rfl | rfl | rfl | rfl | rfl | rfl <;>
    exact PyStr.unpaired_ofChars _

theorem toDict_eq_ok_iff {d : Json} : c.toDict codecs = .ok d ↔ ∃ ds id,
    c.operations.mapM (fun o => o.toDict codecs) = .ok ds ∧ c.changesetId codecs = .ok id ∧
      d = .obj (ChangeOperation.fieldsOf (c.entries ds id)) := by
  constructor
  · intro h
    obtain ⟨fields, made, h⟩ := bind_ok.1 h
    obtain ⟨id, named, h⟩ := bind_ok.1 h
    obtain ⟨ds, hds, made⟩ := bind_ok.1 made
    cases made
    exact ⟨ds, id, hds, named, (Except.ok.inj h).symm⟩
  · rintro ⟨ds, id, hds, named, rfl⟩
    exact bind_ok.2 ⟨_, bind_ok.2 ⟨ds, hds, rfl⟩,
      bind_ok.2 ⟨id, named, rfl⟩⟩

theorem isFinite_entries {ds : List Json} (hds : c.operations.mapM (fun o => o.toDict codecs) = .ok ds) (id : PyStr) :
    (Json.obj (ChangeOperation.fieldsOf (c.entries ds id))).isFinite = true := by
  have texts (ss : List PyStr) : (Json.arr (ss.map .str)).isFinite = true := by
    refine Json.itemsFinite_iff.2 fun v mem => ?_
    obtain ⟨s, -, rfl⟩ := List.mem_map.1 mem
    rfl
  have operations : (Json.arr ds).isFinite = true := by
    refine Json.itemsFinite_iff.2 fun v mem => ?_
    obtain ⟨o, -, made⟩ := Except.exists_of_mem_mapM hds mem
    exact ChangeOperation.isFinite_toDict made
  refine ChangeOperation.isFinite_fieldsOf ?_
  simp only [entries, List.forall_mem_cons]
  refine ⟨?_, ?_, ?_, ?_, ?_, ?_, ?_, ?_, ?_, ?_, ?_, ?_, fun _ mem => by cases mem⟩
  all_goals intro v mem
  all_goals obtain rfl := Option.some.inj mem
  all_goals first | rfl | exact texts _ | exact operations

theorem isFinite_toDict {d : Json} (h : c.toDict codecs = .ok d) : d.isFinite = true := by
  obtain ⟨ds, id, hds, -, rfl⟩ := toDict_eq_ok_iff.1 h
  exact isFinite_entries hds id

/-- The bytes that `encode` writes. -/
theorem encode_eq_ok_iff {b : Bytes} : c.encode codecs = .ok b ↔ ∃ d ds, c.toDict codecs = .ok d ∧
    c.operations.mapM (fun o => o.toDict codecs) = .ok ds ∧ Fits d ds ∧
    b = layout (text d) ds.length (ds.flatMap fun e => framed (text e)) := by
  have frames {ds : List Json} (hds : c.operations.mapM (fun o => o.toDict codecs) = .ok ds) {bs : List Bytes} :
      c.operations.mapM (frame codecs) = .ok bs ↔
        (∀ e ∈ ds, (text e).length < 2 ^ 32) ∧ bs = ds.map fun e => framed (text e) := by
    rw [Except.mapM_eq_ok_iff] at hds ⊢
    generalize c.operations = os at hds
    induction hds generalizing bs with
    | nil => simp [eq_comm]
    | @cons o e os ds first rest ih =>
      rw [List.forall₂_cons_left_iff, List.forall_mem_cons, List.map_cons]
      constructor
      · rintro ⟨x, xs, made, more, rfl⟩
        obtain ⟨d, hd, small, rfl⟩ := frame_eq_ok_iff.1 made
        obtain rfl : e = d := Except.ok.inj (first.symm.trans hd)
        obtain ⟨others, rfl⟩ := ih.1 more
        exact ⟨⟨small, others⟩, rfl⟩
      · rintro ⟨⟨small, others⟩, rfl⟩
        exact ⟨_, _, frame_eq_ok_iff.2 ⟨e, first, small, rfl⟩, ih.2 ⟨others, rfl⟩, rfl⟩
  constructor
  · intro h
    obtain ⟨d, hd, h⟩ := bind_ok.1 h
    obtain ⟨metadata, written, h⟩ := bind_ok.1 h
    obtain ⟨bs, framed, h⟩ := bind_ok.1 h
    obtain ⟨size, one, h⟩ := bind_ok.1 h
    obtain ⟨count, two, h⟩ := bind_ok.1 h
    obtain ⟨whole, three, h⟩ := bind_ok.1 h
    obtain ⟨-, rfl⟩ := canonical_eq_ok_iff.1 written
    obtain ⟨short, rfl⟩ := packU32_eq_ok_iff.1 one
    obtain ⟨few, rfl⟩ := packU32_eq_ok_iff.1 two
    obtain ⟨fit, rfl⟩ := packU32_eq_ok_iff.1 three
    obtain ⟨ds, id, hds, -, -⟩ := toDict_eq_ok_iff.1 hd
    obtain ⟨records, rfl⟩ := (frames hds).1 framed
    have length := (Except.mapM_eq_ok_iff.1 hds).length_eq
    rw [length] at few h
    rw [← List.flatMap_def] at fit h
    exact ⟨d, ds, hd, hds, ⟨short, few, records, fit⟩, (Except.ok.inj h).symm⟩
  · rintro ⟨d, ds, hd, hds, ⟨one, two, records, three⟩, rfl⟩
    have length := (Except.mapM_eq_ok_iff.1 hds).length_eq
    rw [← length] at two
    refine bind_ok.2 ⟨d, hd, bind_ok.2 ⟨text d, canonical_eq_ok_iff.2
      ⟨isFinite_toDict hd, rfl⟩, bind_ok.2 ⟨_, (frames hds).2 ⟨records, rfl⟩, ?_⟩⟩⟩
    rw [← List.flatMap_def]
    refine bind_ok.2 ⟨_, packU32_eq_ok_iff.2 ⟨one, rfl⟩, bind_ok.2
      ⟨_, packU32_eq_ok_iff.2 ⟨two, rfl⟩, bind_ok.2 ⟨_, packU32_eq_ok_iff.2 ⟨three, rfl⟩, ?_⟩⟩⟩
    rw [length]
    rfl

/-- What is read of the text of a dictionary. -/
def read (d : Json) : Json := Json.reread (Json.sortKeys d)

/-- What `__post_init__` has checked of the change set that it returns. -/
structure Initialised (f : Fields) (c : BinaryChangeSet) : Prop where
  bound : f.repository ≠ [] ∧ f.baseGeneration ≠ [] ∧ f.overlayGeneration ≠ [] ∧ f.attempt ≠ []
  worktree : isWorktree f.worktreeId = true
  authority : f.leaseId ≠ [] ∧ f.fencingToken ≠ []
  allowed : ∀ p ∈ f.allowedPaths, p.strip ≠ []
  commands : ∀ s ∈ f.verificationCommands, s.strip ≠ []
  paths : ∃ paths, f.allowedPaths.mapM checkPath = .ok paths ∧ c.allowedPaths = PyStr.sortedSet paths
  paths_ne_nil : c.allowedPaths ≠ []
  within : notAllowed c.allowedPaths c.operations = none
  operations : c.operations = f.operations.map Subtype.val
  fields : c.repository = f.repository ∧ c.baseGeneration = f.baseGeneration ∧
    c.overlayGeneration = f.overlayGeneration ∧ c.attempt = f.attempt ∧ c.worktreeId = f.worktreeId ∧
    c.leaseId = f.leaseId ∧ c.fencingToken = f.fencingToken ∧ c.verificationCommands = f.verificationCommands

theorem checkWorktree_eq_ok_iff {s t : PyStr} : checkWorktree s = .ok t ↔ isWorktree s = true ∧ t = s := by
  unfold checkWorktree
  split_ifs with valid
  · exact ⟨fun h => ⟨valid, (Except.ok.inj h).symm⟩, fun h => congrArg Except.ok h.2.symm⟩
  · exact iff_of_false (fun h => by cases h) fun h => valid h.1

theorem ite_error_eq_ok_iff {α : Type} {p : Prop} [Decidable p] {x : ChangeSetRaised} {y : Except ChangeSetRaised α} {a : α} :
    (if p then .error x else y) = .ok a ↔ ¬ p ∧ y = .ok a := by
  by_cases h : p
  · rw [if_pos h]
    exact iff_of_false (fun e => by cases e) fun e => e.1 h
  · rw [if_neg h]
    exact (and_iff_right h).symm

theorem postInit_eq_ok_iff {f : Fields} : postInit f = .ok c ↔ Initialised f c := by
  unfold postInit
  rw [ite_error_eq_ok_iff, bind_ok]
  simp only [not_or]
  constructor
  · rintro ⟨bound, w, worktree, h⟩
    rw [ite_error_eq_ok_iff, ite_error_eq_ok_iff, ite_error_eq_ok_iff] at h
    obtain ⟨authority, allowed, commands, h⟩ := h
    obtain ⟨paths, hpaths, h⟩ := bind_ok.1 h
    rw [ite_error_eq_ok_iff] at h
    obtain ⟨some, h⟩ := h
    split_ifs at h with none
    split at h
    · cases h
    · rename_i within
      cases h
      refine ⟨bound, (checkWorktree_eq_ok_iff.1 worktree).1, not_or.1 authority, ?_, ?_, ⟨paths, hpaths, rfl⟩, some,
        within, rfl, rfl, rfl, rfl, rfl, rfl, rfl, rfl, rfl⟩
      · simpa using allowed
      · simpa using commands
  · rintro ⟨bound, worktree, authority, allowed, commands, ⟨paths, hpaths, sorted⟩, some, within, operations,
      h₁, h₂, h₃, h₄, h₅, h₆, h₇, h₈⟩
    have ne : f.operations ≠ [] := by
      intro e
      rw [e] at operations
      exact c.operations_ne_nil operations
    refine ⟨bound, f.worktreeId, checkWorktree_eq_ok_iff.2 ⟨worktree, rfl⟩, ?_⟩
    rw [ite_error_eq_ok_iff, ite_error_eq_ok_iff, ite_error_eq_ok_iff]
    refine ⟨not_or.2 authority, by simpa using allowed, by simpa using commands, bind_ok.2
      ⟨paths, hpaths, ?_⟩⟩
    rw [← sorted, ite_error_eq_ok_iff, dif_neg ne, ← operations, within]
    refine ⟨some, congrArg Except.ok ?_⟩
    cases c
    subst h₁ h₂ h₃ h₄ h₅ h₆ h₇ h₈ operations
    rfl

/-- The entries that are read of the bytes of a change set. -/
structure ReadBack (c : BinaryChangeSet) (ds : List Json) (id : PyStr) (ws : List (PyStr × Json)) : Prop where
  found : ∀ k v, (k, v) ∈ c.entries ds id → k ≠ ("operations" : PyStr) → Dict.find ws k = v.map read
  operations : Dict.find ws "operations" = some (.arr (ds.map read))

/-- A change set all of whose texts come back. -/
structure Plain (c : BinaryChangeSet) : Prop where
  texts : ∀ s ∈ [c.repository, c.baseGeneration, c.overlayGeneration, c.attempt, c.worktreeId, c.leaseId,
    c.fencingToken], s.Unpaired
  allowed : ∀ p ∈ c.allowedPaths, p.Unpaired
  commands : ∀ s ∈ c.verificationCommands, s.Unpaired
  operations : ∀ o ∈ c.operations, o.Plain

variable {fs ws : List (PyStr × Json)} {ds : List Json} {id : PyStr}

theorem fromDict_eq_ok_iff {fs : List (PyStr × Json)} :
    fromDict codecs (.obj fs) = .ok c ↔ ofFields fs = .ok c ∧ checkId codecs fs c = .ok () := by
  constructor
  · intro h
    obtain ⟨c', made, h⟩ := bind_ok.1 h
    obtain ⟨_, checked, h⟩ := bind_ok.1 h
    cases h
    exact ⟨made, checked⟩
  · rintro ⟨made, checked⟩
    exact bind_ok.2 ⟨c, made, bind_ok.2 ⟨(), checked, rfl⟩⟩

variable (codecs c) in
/-- The change sets that come back. -/
structure Survives : Prop where
  registered : ∀ o ∈ c.operations, o.Registered codecs
  fits : ∀ d ds, c.toDict codecs = .ok d → c.operations.mapM (fun o => o.toDict codecs) = .ok ds → Fits d ds
  plain : c.Plain

end BinaryChangeSet

end SimplicioFast
