import SimplicioFast.Prism.Storage

/-!
# Whose base is opened

A base that is opened belongs to the repository that opens it when all rows about its generation were sealed for that
repository, with a source hash that no bar splits (`along_lawful`).  What `publish` returns can always be opened.
-/

namespace SimplicioFast

open Prism

/-- A storage in use: `recorded` are the publications whose files were written, the last one first, and `published`
those whose call of `publish` returned. -/
structure StorageRun where
  storage : Storage
  recorded : List Publication
  published : List Publication

namespace StorageRun

/-- The calls. -/
inductive Call
  | publish (repo sourceHash : PyStr) (files : Dict PyStr Bytes)
  | openArena (repo generation : PyStr) (expected : Option PyStr)
  | openCurrent (repo : PyStr) (expected : Option PyStr)

variable (s : StorageRun)

/-- The run after the files of a publication were written. -/
def written (p : Publication) (st : Storage) : StorageRun where
  storage := st
  recorded := p :: s.recorded
  published := if (st.openArena p.repo p.generation (some p.sourceHash)).toOption.isSome then p :: s.published
    else s.published

def step (s : StorageRun) : Call → StorageRun
  | .publish repo sourceHash files =>
    match encodeBase files with
    | .error _ => s
    | .ok blob =>
      let p : Publication := { repo, sourceHash, blob := blob }
      match s.storage.store p with
      | (.error _, st) => { s with storage := st }
      | (.ok (), st) => s.written p st
  | _ => s

/-- The base was published for the repository that has opened it. -/
def Belongs (repo : PyStr) (a : OpenedArena) : Prop :=
  a.repo = repo ∧ ∃ p ∈ s.published, p.repo = repo ∧ p.sourceHash = a.sourceHash ∧ p.generation = a.generation ∧
    p.baseHash = a.baseHash

/-- What is opened belongs to the repository, and what is published can be opened. -/
def Lawful (s : StorageRun) : Call → Prop
  | .publish repo sourceHash files => ∀ a, (s.storage.publish repo sourceHash files).1 = .ok a →
      ∀ expected ∈ [none, some sourceHash],
        (∃ b, (s.storage.publish repo sourceHash files).2.openArena repo a.generation expected = .ok b ∧
          b.sourceHash = sourceHash) ∧
        ∃ b, (s.storage.publish repo sourceHash files).2.openCurrent repo expected = .ok b ∧
          b.sourceHash = sourceHash
  | .openArena repo generation expected => ∀ a, s.storage.openArena repo generation expected = .ok a → s.Belongs repo a
  | .openCurrent repo expected => ∀ a, s.storage.openCurrent repo expected = .ok a → s.Belongs repo a

/-- No bar stands in a source hash that was written for the generation, and the repository is that of each one whose
source hash is not refused. -/
def Owns (repo generation : PyStr) (expected : Option PyStr) : Prop :=
  ∀ p ∈ s.recorded, directory? generation = some p.generation →
    .scalar '|' ∉ p.sourceHash ∧ (expected.all (p.sourceHash = ·) → p.repo = repo)

/-- The repository owns the generation that it opens. -/
def Careful (s : StorageRun) : Call → Prop
  | .publish _ _ _ => True
  | .openArena repo generation expected => s.Owns repo generation expected
  | .openCurrent repo expected => ∀ p ∈ s.recorded.head?, .scalar '|' ∉ p.sourceHash ∧
      s.Owns repo p.generation expected

end StorageRun

namespace Prism

variable {p : Publication} {row : PyStr} {st : Storage}

/-! ## Rows of a publication -/

theorem isField_mk {key value : PyStr} (plain : .scalar '|' ∉ key ∧ .scalar '=' ∉ key)
    (clean : .scalar '|' ∉ value) : PyStr.IsField (key, value) :=
  ⟨plain.1, clean, plain.2⟩

theorem notMem_decimal {c : Char} (other : c.isDigit = false) (n : ℕ) :
    .scalar c ∉ PyStr.ofChars (Nat.toDigits 10 n) := by
  intro mem
  obtain ⟨d, inside, same⟩ := List.mem_map.1 mem
  cases same
  have digit := Nat.isDigit_of_mem_toDigits (by decide) (by decide) inside
  rw [other] at digit
  cases digit

namespace Publication

theorem isField_metadata (clean : .scalar '|' ∉ p.sourceHash) : ∀ f ∈ p.metadata, PyStr.IsField f := by
  have digest (b : Bytes) : PyChar.scalar '|' ∉ digestOf b := notMem_digestOf (by decide)
  unfold metadata
  simp only [List.forall_mem_cons, List.not_mem_nil, false_implies, implies_true, and_true]
  exact ⟨by decide, by decide, isField_mk (by decide) (digest _), isField_mk (by decide) (digest _),
    isField_mk (by decide) clean, isField_mk (by decide) (digest _),
    isField_mk (by decide) (notMem_decimal (by decide) _)⟩

theorem isField_current (clean : .scalar '|' ∉ p.sourceHash) : ∀ f ∈ p.current, PyStr.IsField f := by
  have digest (b : Bytes) : PyChar.scalar '|' ∉ digestOf b := notMem_digestOf (by decide)
  unfold current
  simp only [List.forall_mem_cons, List.not_mem_nil, false_implies, implies_true, and_true]
  exact ⟨by decide, by decide, isField_mk (by decide) (digest _), isField_mk (by decide) (digest _),
    isField_mk (by decide) clean⟩

theorem seal_current (h : sealReceipt (PyStr.joinFields p.metadata) GENESIS = .ok row) :
    ∃ current, sealReceipt (PyStr.joinFields p.current) GENESIS = .ok current := by
  have genesis : ∀ c ∈ GENESIS, isPlain c = true := by decide
  have sealed := (exists_seal_iff genesis).1 ⟨row, h⟩
  rw [exists_seal_iff genesis]
  rw [PyStr.forall_mem_joinFields_iff (by decide) (by decide)] at sealed ⊢
  intro f mem
  by_cases inside : f ∈ p.metadata
  · exact sealed f inside
  · unfold current at mem
    unfold metadata at inside
    simp only [List.mem_cons, List.not_mem_nil, or_false, not_or] at mem inside
    rcases mem with rfl | rfl | rfl | rfl | rfl
    · exact absurd rfl inside.1
    · exact ⟨by decide, by decide⟩
    · exact absurd rfl inside.2.2.1
    · exact absurd rfl inside.2.2.2.1
    · exact absurd rfl inside.2.2.2.2.1

/-- The text is the sealed row of the fields, but for white space at its ends. -/
def IsRow (fields : List (PyStr × PyStr)) (text : PyStr) : Prop :=
  sealReceipt (PyStr.joinFields fields) GENESIS = .ok text.strip

theorem isRow_of_seal {value row : PyStr} {f : PyStr × PyStr} {fields : List (PyStr × PyStr)}
    (h : sealReceipt (PyStr.joinFields ((("schema" : PyStr), value) :: f :: fields)) GENESIS = .ok row) :
    IsRow ((("schema" : PyStr), value) :: f :: fields) (row ++ [.scalar '\n']) := by
  have start : PyStr.joinFields ((("schema" : PyStr), value) :: f :: fields) = .scalar 's' :: _ :=
    List.intercalate_cons_cons
  unfold IsRow
  rw [strip_of_seal start (by decide) h]
  exact h

theorem fields_of_metadata (clean : .scalar '|' ∉ p.sourceHash) {text : PyStr} (h : IsRow p.metadata text) :
    ∃ fields, metadataFields text.strip = .ok fields ∧ fields.get? "generation" = some p.generation ∧
      fields.get? "source_hash" = some p.sourceHash ∧ fields.get? "base_hash" = some p.baseHash := by
  refine ⟨_, metadataFields_of_seal (List.cons_ne_nil _ _) (isField_metadata clean) h, ?_⟩
  simp only [List.cons_append, List.nil_append, List.foldl_cons, List.foldl_nil, Dict.get?_set]
  refine ⟨?_, ?_, ?_⟩
  · rfl
  · rfl
  · rfl

theorem fields_of_current (clean : .scalar '|' ∉ p.sourceHash) {text : PyStr} (h : IsRow p.current text) :
    ∃ fields, metadataFields text.strip = .ok fields ∧ fields.get? "generation" = some p.generation := by
  refine ⟨_, metadataFields_of_seal (List.cons_ne_nil _ _) (isField_current clean) h, ?_⟩
  simp only [List.cons_append, List.nil_append, List.foldl_cons, List.foldl_nil, Dict.get?_set]
  rfl

theorem directory_generation (p : Publication) : directory? p.generation = some p.generation := by
  have long := length_digestOf (PyStr.encodeAscii (Json.dumps true (.obj [("schema", .str ARENA_SCHEMA),
    ("repo", .str p.repo), ("source_hash", .str p.sourceHash), ("base_hash", .str p.baseHash)])))
  have slash : PyChar.scalar '/' ∉ p.generation := notMem_digestOf (by decide)
  have dot : PyChar.scalar '.' ∉ p.generation := notMem_digestOf (by decide)
  have long : p.generation.length = 64 := long
  generalize p.generation = g at long slash dot
  have one : parts g = [g] := by
    unfold parts
    rw [List.splitOn_eq_singleton slash]
    refine List.filter_eq_self.2 fun part mem => ?_
    rw [List.mem_singleton] at mem
    subst mem
    rw [Bool.and_eq_true, decide_eq_true_eq, decide_eq_true_eq]
    refine ⟨?_, ?_⟩
    · rintro rfl
      cases long
    · rintro rfl
      exact dot List.mem_cons_self
  unfold directory?
  rw [one]
  refine if_neg ?_
  rintro (head | dots)
  · exact slash (List.mem_of_mem_head? head)
  · rw [dots] at dot
    exact dot List.mem_cons_self

end Publication

/-- The storage holds the row of the publication and a base that it describes. -/
structure Holds (st : Storage) (p : Publication) : Prop where
  metadata : ∃ text, st.metadata.get? p.generation = some text ∧ Publication.IsRow p.metadata text
  base : ∃ blob catalog, st.bases.get? p.generation = some blob ∧ digestOf blob = p.baseHash ∧
    decodeCatalog blob = .ok catalog

theorem openArena_eq_ok_iff (holds : Holds st p) (clean : .scalar '|' ∉ p.sourceHash) {repo generation : PyStr}
    (dir : directory? generation = some p.generation) {expected : Option PyStr} {a : OpenedArena} :
    st.openArena repo generation expected = .ok a ↔ generation = p.generation ∧ expected.all (p.sourceHash = ·) ∧
      a.repo = repo ∧ a.generation = generation ∧ a.sourceHash = p.sourceHash ∧ a.baseHash = p.baseHash ∧
        st.bases.get? p.generation = some a.mapping ∧ decodeCatalog a.mapping = .ok a.catalog := by
  obtain ⟨text, there, isRow⟩ := holds.metadata
  obtain ⟨blob, catalog, stored, digest, decoded⟩ := holds.base
  obtain ⟨fields, read, generationField, sourceField, baseField⟩ := Publication.fields_of_metadata clean isRow
  have metadata : st.readMetadata generation = .ok fields := by
    unfold Storage.readMetadata
    rw [dir, Option.bind_some, there]
    dsimp only
    rw [read]
  have bytes : st.readBytes generation = .ok blob := by
    unfold Storage.readBytes
    rw [dir, Option.bind_some, stored]
  have base : check (decide (some p.baseHash = some (digestOf blob))) "snapshot_corrupt" "base digest" = .ok () :=
    check_eq_ok (decide_eq_true (congrArg some digest.symm))
  unfold Storage.openArena
  rw [metadata]
  show (check (decide (fields.get? "generation" = some generation)) _ _ >>= fun _ =>
    check (expected.all ((fields.get? "source_hash").getD [] = ·)) _ _ >>= fun _ =>
      st.readBytes generation >>= fun blob => check (decide (fields.get? "base_hash" = some (digestOf blob))) _ _ >>= _) =
    _ ↔ _
  rw [generationField, sourceField, baseField, bytes, Option.getD_some]
  constructor
  · intro opened
    obtain ⟨_, same, opened⟩ := bind_ok.1 opened
    obtain ⟨_, fresh, opened⟩ := bind_ok.1 opened
    obtain ⟨_, bytes', opened⟩ := bind_ok.1 opened
    cases bytes'
    obtain ⟨_, -, opened⟩ := bind_ok.1 opened
    obtain ⟨_, decoded', opened⟩ := bind_ok.1 opened
    cases opened
    have same := Option.some.inj (of_decide_eq_true (check_eq_ok_iff.1 same))
    exact ⟨same.symm, check_eq_ok_iff.1 fresh, rfl, rfl, rfl, digest, stored, decoded'⟩
  · rintro ⟨rfl, fresh, rfl, sameGeneration, source, baseHash, mapping, decoded'⟩
    rw [stored] at mapping
    refine bind_ok.2 ⟨(), check_eq_ok (decide_eq_true rfl), ?_⟩
    refine bind_ok.2 ⟨(), check_eq_ok fresh, ?_⟩
    refine bind_ok.2 ⟨blob, rfl, ?_⟩
    refine bind_ok.2 ⟨(), base, ?_⟩
    refine bind_ok.2 ⟨a.catalog, ?_, ?_⟩
    · rw [Option.some.inj mapping]
      exact decoded'
    · obtain ⟨repo, generation', sourceHash, baseHash', mapping', catalog'⟩ := a
      dsimp only at sameGeneration source baseHash mapping ⊢
      cases Option.some.inj mapping
      subst sameGeneration source
      rw [digest, ← baseHash]
      rfl

theorem exists_openArena (holds : Holds st p) (clean : .scalar '|' ∉ p.sourceHash) (repo : PyStr)
    {expected : Option PyStr} (fresh : expected.all (p.sourceHash = ·)) :
    ∃ a, st.openArena repo p.generation expected = .ok a ∧ a.sourceHash = p.sourceHash := by
  obtain ⟨blob, catalog, stored, digest, decoded⟩ := holds.base
  refine ⟨⟨repo, p.generation, p.sourceHash, p.baseHash, blob, catalog⟩, ?_, rfl⟩
  exact (openArena_eq_ok_iff holds clean (Publication.directory_generation p)).2
    ⟨rfl, fresh, rfl, rfl, rfl, rfl, stored, decoded⟩

/-! ## What publishing writes -/

/-- The storage has got nothing but the files of the publication, and has lost none. -/
structure Grows (p : Publication) (st st' : Storage) : Prop where
  bases : ∀ d b, st.bases.get? d = some b → st'.bases.get? d = some b
  newBase : ∀ d b, st'.bases.get? d = some b → st.bases.get? d = some b ∨ b = p.blob
  metadata : ∀ d text, st.metadata.get? d = some text → st'.metadata.get? d = some text

theorem Grows.refl (p : Publication) (st : Storage) : Grows p st st :=
  ⟨fun _ _ h => h, fun _ _ h => .inl h, fun _ _ h => h⟩

theorem Grows.trans {st₁ st₂ st₃ : Storage} (h : Grows p st₁ st₂) (h' : Grows p st₂ st₃) : Grows p st₁ st₃ where
  bases d b found := h'.bases d b (h.bases d b found)
  newBase d b found := (h'.newBase d b found).elim (h.newBase d b) .inr
  metadata d text found := h'.metadata d text (h.metadata d text found)

theorem Holds.grow {q : Publication} {st' : Storage} (holds : Holds st p) (grows : Grows q st st') : Holds st' p where
  metadata := by
    obtain ⟨text, there, isRow⟩ := holds.metadata
    exact ⟨text, grows.metadata _ _ there, isRow⟩
  base := by
    obtain ⟨blob, catalog, stored, rest⟩ := holds.base
    exact ⟨blob, catalog, grows.bases _ _ stored, rest⟩

theorem storeBase_eq_ok {st' : Storage} (h : st.storeBase p = .ok st') :
    Grows p st st' ∧ st'.metadata = st.metadata ∧ st'.current = st.current ∧
      ∃ b, st'.bases.get? p.generation = some b ∧ digestOf b = p.baseHash := by
  unfold Storage.storeBase at h
  cases there : st.bases.get? p.generation with
  | some existing =>
    rw [there] at h
    dsimp only at h
    split_ifs at h with same
    cases h
    exact ⟨.refl p st, rfl, rfl, existing, there, not_not.1 same⟩
  | none =>
    rw [there] at h
    cases h
    refine ⟨⟨fun d b found => ?_, fun d b found => ?_, fun _ _ h => h⟩, rfl, rfl, p.blob,
      Dict.get?_set_self _ _ _, rfl⟩
    · have other : d ≠ p.generation := by
        rintro rfl
        rw [there] at found
        cases found
      exact (Dict.get?_set_of_ne _ _ other).trans found
    · have found : (st.bases.set p.generation p.blob).get? d = some b := found
      rw [Dict.get?_set] at found
      split_ifs at found
      · exact .inr (Option.some.inj found).symm
      · exact .inl found

theorem storeMetadata_eq_ok {st' : Storage} (h : st.storeMetadata p = .ok st') :
    Grows p st st' ∧ st'.bases = st.bases ∧ st'.current = st.current ∧
      (∃ row, sealReceipt (PyStr.joinFields p.metadata) GENESIS = .ok row) ∧
      (∃ text, st'.metadata.get? p.generation = some text ∧ Publication.IsRow p.metadata text) ∧
      ∀ d text, st'.metadata.get? d = some text → st.metadata.get? d = some text ∨ d = p.generation := by
  obtain ⟨row, sealed, h⟩ := bind_ok.1 h
  cases there : st.metadata.get? p.generation with
  | some existing =>
    rw [there] at h
    dsimp only at h
    split_ifs at h with same
    cases h
    refine ⟨.refl p st, rfl, rfl, ⟨row, sealed⟩, ⟨existing, there, ?_⟩, fun _ _ found => .inl found⟩
    exact sealed.trans (congrArg _ (not_not.1 same).symm)
  | none =>
    rw [there] at h
    cases h
    refine ⟨⟨fun _ _ h => h, fun _ _ h => .inl h, fun d text found => ?_⟩, rfl, rfl, ⟨row, sealed⟩,
      ⟨_, Dict.get?_set_self _ _ _, Publication.isRow_of_seal sealed⟩, fun d text found => ?_⟩
    · have other : d ≠ p.generation := by
        rintro rfl
        rw [there] at found
        cases found
      exact (Dict.get?_set_of_ne _ _ other).trans found
    · have found : (st.metadata.set p.generation (row ++ [.scalar '\n'])).get? d = some text := found
      rw [Dict.get?_set] at found
      split_ifs at found with same
      · exact .inr same
      · exact .inl found

theorem store_eq_error {st' : Storage} {x : ArenaRaised} (h : st.store p = (.error x, st')) :
    Grows p st st' ∧ st'.metadata = st.metadata ∧ st'.current = st.current := by
  unfold Storage.store at h
  cases first : st.storeBase p with
  | error y =>
    rw [first] at h
    cases h
    exact ⟨.refl p st, rfl, rfl⟩
  | ok st₁ =>
    rw [first] at h
    obtain ⟨grows, metadata, current, -⟩ := storeBase_eq_ok first
    dsimp only at h
    cases second : st₁.storeMetadata p with
    | error y =>
      rw [second] at h
      cases h
      exact ⟨grows, metadata, current⟩
    | ok st₂ =>
      rw [second] at h
      obtain ⟨-, -, -, ⟨row, sealed⟩, -⟩ := storeMetadata_eq_ok second
      obtain ⟨pointer, sealed⟩ := Publication.seal_current sealed
      have third : st₂.storeCurrent p = .ok { st₂ with current := some (pointer ++ [.scalar '\n']) } := by
        unfold Storage.storeCurrent
        rw [sealed]
        rfl
      dsimp only at h
      rw [third] at h
      cases h

theorem store_eq_ok {st' : Storage} (h : st.store p = (.ok (), st')) : Grows p st st' ∧
    (∃ text, st'.metadata.get? p.generation = some text ∧ Publication.IsRow p.metadata text) ∧
    (∃ b, st'.bases.get? p.generation = some b ∧ digestOf b = p.baseHash) ∧
    (∃ text, st'.current = some text ∧ Publication.IsRow p.current text) ∧
    ∀ d text, st'.metadata.get? d = some text → st.metadata.get? d = some text ∨ d = p.generation := by
  unfold Storage.store at h
  cases first : st.storeBase p with
  | error y =>
    rw [first] at h
    cases h
  | ok st₁ =>
    rw [first] at h
    obtain ⟨grows, metadata, -, base⟩ := storeBase_eq_ok first
    dsimp only at h
    cases second : st₁.storeMetadata p with
    | error y =>
      rw [second] at h
      cases h
    | ok st₂ =>
      rw [second] at h
      obtain ⟨grows', bases, -, -, row, new⟩ := storeMetadata_eq_ok second
      dsimp only at h
      cases third : st₂.storeCurrent p with
      | error y =>
        rw [third] at h
        cases h
      | ok st₃ =>
        rw [third] at h
        cases h
        obtain ⟨pointer, sealed, same⟩ := bind_ok.1 third
        cases same
        refine ⟨grows.trans ⟨grows'.bases, grows'.newBase, grows'.metadata⟩, row, ?_,
          ⟨_, rfl, Publication.isRow_of_seal sealed⟩, fun d text found => ?_⟩
        · show ∃ b, st₂.bases.get? p.generation = some b ∧ _
          rw [bases]
          exact base
        · rw [← metadata]
          exact new d text found

end Prism

namespace StorageRun

open Machine

variable {s : StorageRun} {p : Publication}

/-! ## The invariant -/

/-- Every row is one of a recorded publication that the storage holds, and one that can be read was published. -/
structure Stored (s : StorageRun) : Prop where
  holds : ∀ p ∈ s.recorded, Holds s.storage p
  rows : ∀ d text, s.storage.metadata.get? d = some text → ∃ p ∈ s.recorded, p.generation = d
  bases : ∀ d b, s.storage.bases.get? d = some b → ∃ catalog, decodeCatalog b = .ok catalog
  current : ∀ text, s.storage.current = some text → ∃ p ∈ s.recorded.head?, Publication.IsRow p.current text
  published : ∀ p ∈ s.recorded, .scalar '|' ∉ p.sourceHash → p ∈ s.published

theorem Stored.new : Stored ⟨{}, [], []⟩ := ⟨nofun, nofun, nofun, nofun, nofun⟩

theorem holds_of_store {st st' : Storage} (decodes : ∃ catalog, decodeCatalog p.blob = .ok catalog)
    (bases : ∀ d b, st.bases.get? d = some b → ∃ catalog, decodeCatalog b = .ok catalog)
    (h : st.store p = (.ok (), st')) : Holds st' p := by
  obtain ⟨grows, row, ⟨b, stored, digest⟩, -, -⟩ := store_eq_ok h
  refine ⟨row, b, ?_⟩
  rcases grows.newBase _ _ stored with old | rfl
  · obtain ⟨catalog, decoded⟩ := bases _ _ old
    exact ⟨catalog, stored, digest, decoded⟩
  · obtain ⟨catalog, decoded⟩ := decodes
    exact ⟨catalog, stored, digest, decoded⟩

theorem decodes_of_encodeBase {files : Dict PyStr Bytes} {blob : Bytes} (h : encodeBase files = .ok blob) :
    ∃ catalog, decodeCatalog blob = .ok catalog := by
  obtain ⟨catalog, decoded, -⟩ := readBase_of_encodeBase h
  exact ⟨catalog, decoded⟩

theorem Stored.growBases {st' : Storage} (stored : Stored s) (decodes : ∃ catalog, decodeCatalog p.blob = .ok catalog)
    (grows : Grows p s.storage st') (d : PyStr) (b : Bytes) (found : st'.bases.get? d = some b) :
    ∃ catalog, decodeCatalog b = .ok catalog := by
  rcases grows.newBase d b found with old | rfl
  · exact stored.bases d b old
  · exact decodes

theorem Stored.written {st' : Storage} (stored : Stored s) (decodes : ∃ catalog, decodeCatalog p.blob = .ok catalog)
    (h : s.storage.store p = (.ok (), st')) : Stored (s.written p st') := by
  obtain ⟨grows, -, -, ⟨pointer, current, isRow⟩, new⟩ := store_eq_ok h
  have own := holds_of_store decodes stored.bases h
  refine ⟨fun q mem => ?_, fun d text found => ?_, stored.growBases decodes grows, fun text found => ?_,
    fun q mem clean => ?_⟩
  · rcases List.mem_cons.1 mem with rfl | mem
    · exact own
    · exact (stored.holds q mem).grow grows
  · rcases new d text found with old | rfl
    · obtain ⟨q, mem, same⟩ := stored.rows d text old
      exact ⟨q, List.mem_cons_of_mem _ mem, same⟩
    · exact ⟨p, List.mem_cons_self, rfl⟩
  · refine ⟨p, rfl, ?_⟩
    obtain rfl := Option.some.inj (current.symm.trans found)
    exact isRow
  · show q ∈ if (st'.openArena p.repo p.generation (some p.sourceHash)).toOption.isSome then p :: s.published
      else s.published
    rcases List.mem_cons.1 mem with rfl | mem
    · have fresh : (some q.sourceHash).all (q.sourceHash = ·) := decide_eq_true rfl
      obtain ⟨a, opened, -⟩ := exists_openArena own clean q.repo fresh
      rw [opened]
      exact List.mem_cons_self
    · have old := stored.published q mem clean
      split_ifs
      · exact List.mem_cons_of_mem _ old
      · exact old

theorem Stored.step (stored : Stored s) (call : Call) : Stored (s.step call) := by
  cases call with
  | openArena repo generation expected => exact stored
  | openCurrent repo expected => exact stored
  | publish repo sourceHash files =>
    unfold StorageRun.step
    dsimp only
    cases encoded : encodeBase files with
    | error x => exact stored
    | ok blob =>
      dsimp only
      have decodes := decodes_of_encodeBase encoded
      cases outcome : s.storage.store { repo, sourceHash, blob := blob } with
      | mk result st' =>
        cases result with
        | ok u => exact stored.written decodes outcome
        | error x =>
          obtain ⟨grows, metadata, current⟩ := store_eq_error outcome
          refine ⟨fun q mem => (stored.holds q mem).grow grows, fun d text found => ?_,
            stored.growBases decodes grows, fun text found => ?_, stored.published⟩
          · have found : st'.metadata.get? d = some text := found
            rw [metadata] at found
            exact stored.rows d text found
          · have found : st'.current = some text := found
            rw [current] at found
            exact stored.current text found

/-! ## The laws -/

theorem Stored.belongs (stored : Stored s) {repo generation : PyStr} {expected : Option PyStr}
    (owns : s.Owns repo generation expected) {a : OpenedArena}
    (opened : s.storage.openArena repo generation expected = .ok a) : s.Belongs repo a := by
  obtain ⟨fields, read, -⟩ := bind_ok.1 opened
  obtain ⟨d, text, dir, there⟩ : ∃ d text, directory? generation = some d ∧ s.storage.metadata.get? d = some text := by
    unfold Storage.readMetadata at read
    cases found : (directory? generation).bind s.storage.metadata.get? with
    | none =>
      rw [found] at read
      cases read
    | some text =>
      obtain ⟨d, dir, there⟩ := Option.bind_eq_some_iff.1 found
      exact ⟨d, text, dir, there⟩
  obtain ⟨p, mem, rfl⟩ := stored.rows d text there
  obtain ⟨clean, own⟩ := owns p mem dir
  obtain ⟨rfl, fresh, repoEq, same, source, base, -⟩ := (openArena_eq_ok_iff (stored.holds p mem) clean dir).1 opened
  exact ⟨repoEq, p, stored.published p mem clean, own fresh, source.symm, same.symm, base.symm⟩

theorem readCurrent_of_isRow {st : Storage} {text : PyStr} (clean : .scalar '|' ∉ p.sourceHash)
    (there : st.current = some text) (isRow : Publication.IsRow p.current text) :
    st.readCurrent = .ok p.generation := by
  obtain ⟨fields, read, generation⟩ := Publication.fields_of_current clean isRow
  unfold Storage.readCurrent
  rw [there]
  dsimp only
  rw [read]
  dsimp only
  rw [generation]

theorem clean_of_openArena {st : Storage} {repo generation : PyStr} {a : OpenedArena}
    (opened : st.openArena repo generation (some p.sourceHash) = .ok a) : .scalar '|' ∉ p.sourceHash := by
  obtain ⟨fields, read, opened⟩ := bind_ok.1 opened
  obtain ⟨_, -, opened⟩ := bind_ok.1 opened
  obtain ⟨_, fresh, -⟩ := bind_ok.1 opened
  have same : (fields.get? "source_hash").getD [] = p.sourceHash := of_decide_eq_true (check_eq_ok_iff.1 fresh)
  obtain ⟨row, rfl⟩ : ∃ row, fields = PyStr.parseFields row := by
    unfold Storage.readMetadata at read
    split at read
    · cases read
    · split at read
      · cases read
      · rename_i parsed
        obtain ⟨_, -, parsed⟩ := bind_ok.1 parsed
        cases read
        exact ⟨_, (Except.ok.inj parsed).symm⟩
  cases found : (PyStr.parseFields row).get? "source_hash" with
  | none =>
    rw [found] at same
    rw [← same]
    exact List.not_mem_nil
  | some value =>
    rw [found] at same
    rw [← same]
    exact PyStr.notMem_of_parseFields found

theorem reopens_of_store {st st' : Storage} {a : OpenedArena} {expected : Option PyStr}
    (decodes : ∃ catalog, decodeCatalog p.blob = .ok catalog)
    (bases : ∀ d b, st.bases.get? d = some b → ∃ catalog, decodeCatalog b = .ok catalog)
    (outcome : st.store p = (.ok (), st'))
    (published : st'.openArena p.repo p.generation (some p.sourceHash) = .ok a)
    (fresh : expected.all (p.sourceHash = ·) = true) :
    (∃ b, st'.openArena p.repo a.generation expected = .ok b ∧ b.sourceHash = p.sourceHash) ∧
      ∃ b, st'.openCurrent p.repo expected = .ok b ∧ b.sourceHash = p.sourceHash := by
  have clean := clean_of_openArena published
  have holds := holds_of_store decodes bases outcome
  obtain ⟨-, -, -, ⟨text, current, isRow⟩, -⟩ := store_eq_ok outcome
  obtain ⟨-, -, -, generation, -⟩ :=
    (openArena_eq_ok_iff holds clean (Publication.directory_generation p)).1 published
  obtain ⟨b, opened, source⟩ := exists_openArena holds clean p.repo fresh
  refine ⟨⟨b, ?_, source⟩, b, ?_, source⟩
  · rw [generation]
    exact opened
  · show st'.readCurrent >>= _ = _
    rw [readCurrent_of_isRow clean current isRow]
    exact opened

theorem Stored.reopens (stored : Stored s) (repo sourceHash : PyStr) (files : Dict PyStr Bytes) :
    s.Lawful (.publish repo sourceHash files) := by
  intro a published expected among
  have fresh : expected.all (sourceHash = ·) = true := by
    simp only [List.mem_cons, List.not_mem_nil, or_false] at among
    rcases among with rfl | rfl
    · rfl
    · exact decide_eq_true rfl
  unfold Storage.publish at published ⊢
  cases encoded : encodeBase files with
  | error x =>
    rw [encoded] at published
    cases published
  | ok blob =>
    rw [encoded] at published
    dsimp only at published ⊢
    cases outcome : s.storage.store { repo, sourceHash, blob := blob } with
    | mk result st' =>
      rw [outcome] at published
      cases result with
      | error x => cases published
      | ok u => exact reopens_of_store (decodes_of_encodeBase encoded) stored.bases outcome published fresh

theorem Stored.lawful (stored : Stored s) {call : Call} (careful : s.Careful call) : s.Lawful call := by
  cases call with
  | publish repo sourceHash files => exact stored.reopens repo sourceHash files
  | openArena repo generation expected => exact fun a opened => stored.belongs careful opened
  | openCurrent repo expected =>
    intro a opened
    obtain ⟨generation, read, opened⟩ := bind_ok.1 opened
    cases there : s.storage.current with
    | none =>
      unfold Storage.readCurrent at read
      rw [there] at read
      cases read
    | some text =>
      obtain ⟨p, last, isRow⟩ := stored.current text there
      obtain ⟨clean, owns⟩ := careful p last
      rw [readCurrent_of_isRow clean there isRow] at read
      cases read
      exact stored.belongs owns opened

/-- In a run on a new storage in which each repository only opens generations that it owns, everything opened belongs
to the repository, and everything published can be opened. -/
theorem along_lawful {calls : List Call} (careful : Along step Careful ⟨{}, [], []⟩ calls) :
    Along step Lawful ⟨{}, [], []⟩ calls :=
  careful.imp_of_invariant Stored.new (fun _ call stored _ => stored.step call)
    fun _ _ stored careful => stored.lawful careful

/-! ## One repository publishes, another one opens -/

theorem exists_store_new (plain : ∀ c ∈ p.sourceHash, isPlain c = true) :
    ∃ st, Storage.store {} p = (.ok (), st) := by
  have sealed : ∃ row, sealReceipt (PyStr.joinFields p.metadata) GENESIS = .ok row := by
    rw [exists_seal_iff (by decide), PyStr.forall_mem_joinFields_iff (by decide) (by decide)]
    have digest (b : Bytes) : ∀ c ∈ digestOf b, isPlain c = true := fun c mem => isPlain_digestOf mem
    have decimal : ∀ c ∈ PyStr.ofChars (Nat.toDigits 10 p.blob.length), isPlain c = true := by
      intro c mem
      obtain ⟨d, inside, rfl⟩ := List.mem_map.1 mem
      have digit := Nat.isDigit_of_mem_toDigits (by decide) (by decide) inside
      have newline : d ≠ '\n' := by
        rintro rfl
        cases digit
      have return_ : d ≠ '\r' := by
        rintro rfl
        cases digit
      simp [isPlain, newline, return_]
    unfold Publication.metadata
    simp only [List.forall_mem_cons, List.not_mem_nil, false_implies, implies_true, and_true]
    exact ⟨by decide, by decide, ⟨by decide, digest _⟩, ⟨by decide, digest _⟩, ⟨by decide, plain⟩,
      ⟨by decide, digest _⟩, by decide, decimal⟩
  obtain ⟨row, sealed⟩ := sealed
  obtain ⟨pointer, sealed'⟩ := Publication.seal_current sealed
  have first : Storage.storeBase {} p = .ok { bases := Dict.empty.set p.generation p.blob } := rfl
  have second : Storage.storeMetadata { bases := Dict.empty.set p.generation p.blob } p =
      .ok { bases := Dict.empty.set p.generation p.blob
            metadata := Dict.empty.set p.generation (row ++ [.scalar '\n']) } := by
    unfold Storage.storeMetadata
    rw [sealed]
    rfl
  unfold Storage.store
  rw [first]
  dsimp only
  rw [second]
  unfold Storage.storeCurrent
  rw [sealed']
  exact ⟨_, rfl⟩

theorem step_publish_of_store {files : Dict PyStr Bytes} {st : Storage} (encoded : encodeBase files = .ok p.blob)
    (stored : s.storage.store p = (.ok (), st)) :
    s.step (.publish p.repo p.sourceHash files) = s.written p st := by
  unfold step
  dsimp only
  rw [encoded]
  dsimp only
  rw [stored]

def samplePublication : Publication := { repo := "a", sourceHash := "s", blob := MAGIC ++ [0, 0, 0, 0] }

def samplePublish : Call := .publish "a" "s" .empty

theorem step_samplePublish : ∃ st, Storage.store {} samplePublication = (.ok (), st) ∧
    step ⟨{}, [], []⟩ samplePublish = written ⟨{}, [], []⟩ samplePublication st := by
  obtain ⟨st, stored⟩ := exists_store_new (p := samplePublication) (by decide)
  have reached : step ⟨{}, [], []⟩ (.publish samplePublication.repo samplePublication.sourceHash .empty) =
      written ⟨{}, [], []⟩ samplePublication st := step_publish_of_store rfl stored
  exact ⟨st, stored, reached⟩

/-- The repository opens what it has published. -/
def ownRun : List Call := [samplePublish, .openCurrent "a" none, .openArena "a" "s" (some "s")]

theorem along_lawful_ownRun : Along step Lawful ⟨{}, [], []⟩ ownRun := by
  obtain ⟨st, -, reached⟩ := step_samplePublish
  have owns (generation : PyStr) (expected : Option PyStr) :
      (written ⟨{}, [], []⟩ samplePublication st).Owns "a" generation expected := by
    intro p mem _
    rw [show p = samplePublication from List.mem_singleton.1 mem]
    exact ⟨by decide, fun _ => rfl⟩
  apply along_lawful
  refine ⟨trivial, ?_⟩
  rw [reached]
  refine ⟨fun p last => ?_, owns _ _, trivial⟩
  obtain rfl : samplePublication = p := Option.some.inj last
  exact ⟨by decide, owns _ _⟩

def foreignRun : List Call := [samplePublish, .openCurrent "b" none]

theorem not_lawful_openCurrent {st : Storage} {repo : PyStr} (clean : .scalar '|' ∉ p.sourceHash)
    (decodes : ∃ catalog, decodeCatalog p.blob = .ok catalog) (outcome : Storage.store {} p = (.ok (), st))
    (foreign : p.repo ≠ repo) : ¬ (written ⟨{}, [], []⟩ p st).Lawful (.openCurrent repo none) := by
  intro lawful
  have holds : Holds st p := holds_of_store decodes (fun d b found => by cases found) outcome
  obtain ⟨-, -, -, ⟨text, current, isRow⟩, -⟩ := store_eq_ok outcome
  have fresh : (none : Option PyStr).all (p.sourceHash = ·) := rfl
  obtain ⟨a, opened, -⟩ := exists_openArena holds clean repo fresh
  have pointed : st.openCurrent repo none = .ok a := by
    unfold Storage.openCurrent
    rw [readCurrent_of_isRow clean current isRow]
    exact opened
  obtain ⟨-, q, published, same, -⟩ := lawful a pointed
  have published : q ∈ if (st.openArena p.repo p.generation (some p.sourceHash)).toOption.isSome then [p] else [] :=
    published
  split_ifs at published
  · rw [List.mem_singleton.1 published] at same
    exact foreign same
  · cases published

theorem not_along_lawful_foreignRun : ¬ Along step Lawful ⟨{}, [], []⟩ foreignRun := by
  rintro ⟨-, lawful, -⟩
  obtain ⟨st, outcome, reached⟩ := step_samplePublish
  rw [reached] at lawful
  exact not_lawful_openCurrent (by decide) ⟨_, rfl⟩ outcome (by decide) lawful

end StorageRun

end SimplicioFast
