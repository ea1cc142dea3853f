import Mathlib.Data.List.TakeWhile
import SimplicioFast.Deltas.Loaded

/-!
# Accepted deltas

`compose_delta` accepts a delta of the base that it can load exactly when the sources have the composed hashes
(`accepts_iff`).  The delta that `create_delta` makes of the whole worktree has the hashes of the sources, but it can
be loaded only when `_normal_path` returns each path that has changed as it is (`composes_iff`): `create_delta` puts the
paths of `source_files` into the delta as they are, and a path with a backslash, or with a colon as its second character,
is refused when the delta is read.
-/

namespace SimplicioFast

namespace Deltas

variable {parse : PyStr → Bytes → Except DeltaRaised (List JsonObject)} {createdAt : PyStr} {tree tree' : Worktree}
  {files files' : DeltaFiles} {base : Base} {baseGeneration worktreeId generation : PyStr} {config : Option PyStr}
  {changed : Dict PyStr JsonObject} {d d' : Delta} {p : PyStr}

/-- The sources have the hashes of the base with the records on top: none is stale, missing or unlisted. -/
def Agrees (tree : Worktree) (base : Base) (changed : Dict PyStr JsonObject) : Prop :=
  ∀ p, (hashes tree.sources).get? p = (composedSourceHashes base changed).get? p

def Belongs (base : Base) (baseGeneration : PyStr) (config : Option PyStr) (d : Delta) : Prop :=
  validateDeltaBase baseGeneration d base config = .ok ()

theorem belongs_iff : Belongs base baseGeneration config d ↔ d.baseGeneration = baseGeneration ∧
    d.baseCommit = base.commit ∧ d.baseConfigFingerprint = base.configFingerprint ∧
      config.all (· = base.configFingerprint) = true ∧ d.baseSchema = base.schema ∧
        d.baseSnapshotSha256 = base.snapshotSha256 := by
  unfold Belongs validateDeltaBase
  simp only [bind_ok, require_eq_ok_iff, exists_const, decide_eq_true_eq, Bool.and_eq_true]

/-- The delta of a worktree is accepted. -/
def Accepts (tree : Worktree) (files : DeltaFiles) (base : Base) (baseGeneration worktreeId generation : PyStr)
    (config : Option PyStr) : Prop :=
  ∃ d, composeDelta tree files base baseGeneration worktreeId generation config none = .ok d

theorem accepts_iff : Accepts tree files base baseGeneration worktreeId generation config ↔
    ∃ d, loadDelta files worktreeId generation = .ok d ∧ Belongs base baseGeneration config d ∧
      Agrees tree base d.changed := by
  constructor
  · rintro ⟨e, composed⟩
    obtain ⟨d, loaded, composed⟩ := bind_ok.1 composed
    obtain ⟨_, belongs, composed⟩ := bind_ok.1 composed
    obtain ⟨scope, whole, composed⟩ := bind_ok.1 composed
    obtain ⟨_, agrees, -⟩ := bind_ok.1 composed
    cases whole
    exact ⟨d, loaded, belongs, validateComposedSources_iff.1 agrees⟩
  · rintro ⟨d, loaded, belongs, agrees⟩
    refine ⟨d, bind_ok.2 ⟨d, loaded, bind_ok.2 ⟨(), belongs, ?_⟩⟩⟩
    exact bind_ok.2 ⟨none, rfl, bind_ok.2 ⟨(), validateComposedSources_iff.2 agrees, rfl⟩⟩

/-! ## The delta that is created -/

/-- Another identity than the one that was created has its digest. -/
def Collides (parse : PyStr → Bytes → Except DeltaRaised (List JsonObject)) (tree : Worktree) (base : Base)
    (baseGeneration worktreeId : PyStr) (d : Delta) : Prop :=
  ∃ changed text text', wholeChanges parse base tree.sources = .ok changed ∧ canonicalJson d.toIdentity.toJson = .ok text ∧
    canonicalJson (base.identity baseGeneration worktreeId changed).toJson = .ok text' ∧ text ≠ text' ∧
      Sha256.hexdigest text = Sha256.hexdigest text'

theorem digest_eq_ok_iff {v : Json} {s : PyStr} :
    digest v = .ok s ↔ ∃ text, canonicalJson v = .ok text ∧ PyStr.ofChars (Sha256.hexdigest text) = s := by
  unfold digest
  rw [bind_ok]
  exact exists_congr fun text => and_congr_right fun _ => ⟨Except.ok.inj, congrArg Except.ok⟩

/-- The texts of two identities differ and have one digest. -/
def Collide (i j : Identity) : Prop :=
  ∃ text text', canonicalJson i.toJson = .ok text ∧ canonicalJson j.toJson = .ok text' ∧ text ≠ text' ∧
    Sha256.hexdigest text = Sha256.hexdigest text'

theorem collide_or_alike {i j : Identity} (first : digest i.toJson = .ok generation)
    (second : digest j.toJson = .ok generation) : Collide i j ∨ i.Alike j := by
  obtain ⟨text, canonical, hex⟩ := digest_eq_ok_iff.1 first
  obtain ⟨text', canonical', hex'⟩ := digest_eq_ok_iff.1 second
  by_cases same : text = text'
  · subst same
    exact .inr (alike_of_same (same_of_canonicalJson (distinctKeys_identity _) (distinctKeys_identity _) canonical canonical'))
  · exact .inl ⟨text, text', canonical, canonical', same, PyStr.ofChars_injective (hex.trans hex'.symm)⟩

/-- What `create_delta` returns is the new delta, or the one in the file of its generation. -/
theorem published_or_kept {fresh : Delta} (ran : keepOrPublish files fresh = .ok (d, files')) :
    publish files fresh = .ok (d, files') ∨
      files' = files ∧ loadDelta files fresh.worktreeId fresh.deltaGeneration = .ok d := by
  unfold keepOrPublish at ran
  split_ifs at ran
  · split at ran
    · next old kept =>
      cases ran
      exact .inr ⟨rfl, kept⟩
    · exact .inl ran
    · cases ran
  · exact .inl ran

/-- The delta that was created, and whether its file can be loaded. -/
structure Created (parse : PyStr → Bytes → Except DeltaRaised (List JsonObject)) (tree : Worktree) (base : Base)
    (baseGeneration worktreeId : PyStr) (config : Option PyStr) (files' : DeltaFiles) (d : Delta) : Prop where
  config : config.all (· = base.configFingerprint) = true
  worktree : d.worktreeId = worktreeId
  identity : Collides parse tree base baseGeneration worktreeId d ∨
    ∃ changed, wholeChanges parse base tree.sources = .ok changed ∧
      d.toIdentity.Alike (base.identity baseGeneration worktreeId changed)
  normal : ∀ d', loadDelta files' worktreeId d.deltaGeneration = .ok d' →
    ∀ p, (d.changed.get? p).isSome = true → normalPath p = .ok p
  loaded : (∀ p, (d.changed.get? p).isSome = true → normalPath p = .ok p) →
    ∃ d', loadDelta files' worktreeId d.deltaGeneration = .ok d' ∧ d'.toIdentity.Alike d.toIdentity

theorem created_of_publish (worktree : checkWorktreeId d.worktreeId = .ok ())
    (verified : digest d.toIdentity.toJson = .ok d.deltaGeneration) (sealed : d.deltaSha256 = d.deltaGeneration)
    (published : publish files d = .ok (d', files')) : d' = d ∧
      (∀ d', loadDelta files' d.worktreeId d.deltaGeneration = .ok d' →
        ∀ p, (d.changed.get? p).isSome = true → normalPath p = .ok p) ∧
      ((∀ p, (d.changed.get? p).isSome = true → normalPath p = .ok p) →
        ∃ d', loadDelta files' d.worktreeId d.deltaGeneration = .ok d' ∧ d'.toIdentity.Alike d.toIdentity) := by
  obtain ⟨text, canonical, published⟩ := bind_ok.1 published
  cases published
  have file := Dict.get?_set_self files (d.worktreeId, d.deltaGeneration) text
  exact ⟨rfl, fun d' loaded => normal_of_file canonical file loaded,
    exists_loadDelta worktree verified sealed canonical file⟩

theorem created_of_createDelta
    (ran : createDelta parse createdAt tree files base baseGeneration worktreeId none config = .ok (d, files')) :
    Created parse tree base baseGeneration worktreeId config files' d := by
  obtain ⟨_, worktree, ran⟩ := bind_ok.1 ran
  obtain ⟨_, fingerprint, ran⟩ := bind_ok.1 ran
  obtain ⟨requested, whole, ran⟩ := bind_ok.1 ran
  cases whole
  obtain ⟨current, sources, ran⟩ := bind_ok.1 ran
  cases sources
  obtain ⟨-, -, ran⟩ := bind_ok.1 ran
  obtain ⟨changed, changes, ran⟩ := bind_ok.1 ran
  obtain ⟨generation, verified, ran⟩ := bind_ok.1 ran
  obtain ⟨fresh, made, ran⟩ := bind_ok.1 ran
  have fields := make_eq_ok_iff.1 made
  have identity : fresh.toIdentity = base.identity baseGeneration worktreeId changed := congrArg Fields.toIdentity fields
  have here : fresh.worktreeId = worktreeId := congrArg Identity.worktreeId identity
  have name : fresh.deltaGeneration = generation := congrArg Fields.deltaGeneration fields
  have sealed : fresh.deltaSha256 = generation := congrArg Fields.deltaSha256 fields
  rcases published_or_kept ran with published | ⟨rfl, kept⟩
  · obtain ⟨rfl, normal, loaded⟩ := created_of_publish (here ▸ worktree) (by rw [identity, name]; exact verified)
      (sealed.trans name.symm) published
    rw [here] at normal loaded
    refine ⟨require_eq_ok_iff.1 fingerprint, here, .inr ⟨changed, changes, ?_⟩, normal, loaded⟩
    rw [identity]
    exact alike_of_same (.refl _)
  · rw [here, name] at kept
    obtain ⟨named, there, digest⟩ := spec_of_loadDelta kept
    refine ⟨require_eq_ok_iff.1 fingerprint, there, ?_, fun _ _ => normal_of_loadDelta kept, fun _ =>
      ⟨d, named ▸ kept, alike_of_same (.refl _)⟩⟩
    rcases collide_or_alike digest verified with ⟨text, text', canonical, canonical', differ, hex⟩ | alike
    · exact .inl ⟨changed, text, text', changes, canonical, canonical', differ, hex⟩
    · exact .inr ⟨changed, changes, alike⟩

/-- The delta of the whole worktree composes with the base to the hashes of the sources, and it is accepted by exactly the
worktrees that have the composed hashes. -/
structure Composes (tree : Worktree) (files' : DeltaFiles) (base : Base) (baseGeneration worktreeId : PyStr)
    (config : Option PyStr) (d : Delta) : Prop where
  reproduces : ∀ p, (composedSourceHashes base d.changed).get? p = (hashes tree.sources).get? p
  accepts : ∀ tree', Accepts tree' files' base baseGeneration worktreeId d.deltaGeneration config ↔
    Agrees tree' base d.changed

theorem Created.composes_iff (created : Created parse tree base baseGeneration worktreeId config files' d)
    (apart : ¬ Collides parse tree base baseGeneration worktreeId d) :
    Composes tree files' base baseGeneration worktreeId config d ↔
      ∀ p, base.sourceHashes.get? p ≠ (hashes tree.sources).get? p → normalPath p = .ok p := by
  obtain ⟨changed, changes, alike⟩ := created.identity.resolve_left apart
  have reproduces (p : PyStr) : (composedSourceHashes base d.changed).get? p = (hashes tree.sources).get? p := by
    rw [get?_composed_of_same base alike.changed]
    exact get?_composed_wholeChanges changes p
  -- the records of the delta are those of the paths that differ
  have listed (p : PyStr) : (d.changed.get? p).isSome = true ↔
      base.sourceHashes.get? p ≠ (hashes tree.sources).get? p := by
    rw [isSome_of_same alike.changed]
    show (changed.get? p).isSome = true ↔ _
    rcases get?_wholeChanges changes p with ⟨absent, same⟩ | ⟨record, found, -, differ⟩
    · rw [absent]
      exact iff_of_false nofun (not_not.2 same)
    · rw [found]
      exact iff_of_true rfl differ
  simp only [← listed]
  constructor
  · intro composes
    obtain ⟨d', loaded, -⟩ := accepts_iff.1 ((composes.accepts tree).2 fun p => (reproduces p).symm)
    exact created.normal d' loaded
  · intro normal
    refine ⟨reproduces, fun tree' => ?_⟩
    obtain ⟨d', loaded, same⟩ := created.loaded normal
    have agrees : Agrees tree' base d'.changed ↔ Agrees tree' base d.changed := by
      unfold Agrees
      simp only [get?_composed_of_same base same.changed]
    rw [accepts_iff, ← agrees]
    constructor
    · rintro ⟨e, again, -, agrees⟩
      cases loaded.symm.trans again
      exact agrees
    · refine fun agrees => ⟨d', loaded, belongs_iff.2 ⟨?_, ?_, ?_, created.config, ?_, ?_⟩, agrees⟩
      · exact same.baseGeneration.trans alike.baseGeneration
      · exact same.baseCommit.trans alike.baseCommit
      · exact same.baseConfigFingerprint.trans alike.baseConfigFingerprint
      · exact same.baseSchema.trans alike.baseSchema
      · exact same.baseSnapshotSha256.trans alike.baseSnapshotSha256

/-- A delta of the base that can be loaded is accepted exactly when it agrees with the sources; the delta of the whole
worktree reproduces the worktree and can be loaded exactly when the paths that have changed are normal, unless an older
delta has another identity with the same digest. -/
theorem delta_composes_iff (parse : PyStr → Bytes → Except DeltaRaised (List JsonObject)) (base : Base)
    (baseGeneration worktreeId : PyStr) (config : Option PyStr) :
    (∀ tree files generation d, loadDelta files worktreeId generation = .ok d → Belongs base baseGeneration config d →
      (Accepts tree files base baseGeneration worktreeId generation config ↔ Agrees tree base d.changed)) ∧
    ∀ createdAt tree files files' d,
      createDelta parse createdAt tree files base baseGeneration worktreeId none config = .ok (d, files') →
        Collides parse tree base baseGeneration worktreeId d ∨
          (Composes tree files' base baseGeneration worktreeId config d ↔
            ∀ p, base.sourceHashes.get? p ≠ (hashes tree.sources).get? p → normalPath p = .ok p) := by
  constructor
  · intro tree files generation d loaded belongs
    rw [accepts_iff]
    constructor
    · rintro ⟨d', again, -, agrees⟩
      cases loaded.symm.trans again
      exact agrees
    · exact fun agrees => ⟨d, loaded, belongs, agrees⟩
  · intro createdAt tree files files' d ran
    by_cases collides : Collides parse tree base baseGeneration worktreeId d
    · exact .inl collides
    · exact .inr ((created_of_createDelta ran).composes_iff collides)

/-! ## A file that was added -/

def emptyBase : Base where
  schema := MANIFEST_SCHEMA
  commit := "unknown"
  configFingerprint := "config"
  sourceHashes := .empty
  snapshotSha256 := PyStr.ofChars (List.replicate 64 'a')

def emptyGeneration : PyStr := PyStr.ofChars (List.replicate 64 'b')

/-- A worktree with one file, which is empty. -/
def oneSource (path : PyStr) : Worktree where
  sources := Dict.empty.set path []
  resolve _ := (true, none)

def noSymbols (_ : PyStr) (_ : Bytes) : Except DeltaRaised (List JsonObject) := .ok []

theorem isSha256_hexdigest (b : Bytes) : (PyStr.ofChars (Sha256.hexdigest b)).isSha256 = true := by
  unfold PyStr.isSha256 PyStr.ofChars
  rw [List.length_map, Sha256.length_hexdigest, List.all_map, Bool.and_eq_true, List.all_eq_true]
  exact ⟨rfl, Sha256.forall_mem_hexdigest (by decide) b⟩

theorem strip_hexdigest (b : Bytes) : (PyStr.ofChars (Sha256.hexdigest b)).strip ≠ [] := by
  have keep {s : PyStr} (plain : ∀ c ∈ s, PyStr.isSpace c = false) : s.dropWhile PyStr.isSpace = s :=
    List.dropWhile_eq_self_iff.2 fun _ => Bool.eq_false_iff.1 (plain _ (List.getElem_mem _))
  have plain : ∀ c ∈ PyStr.ofChars (Sha256.hexdigest b), PyStr.isSpace c = false := by
    unfold PyStr.ofChars
    rw [List.forall_mem_map]
    exact Sha256.forall_mem_hexdigest (by decide) b
  unfold PyStr.strip PyStr.stripIf
  rw [keep plain, keep fun c mem => plain c (List.mem_reverse.1 mem), List.reverse_reverse]
  intro empty
  have long := congrArg List.length empty
  rw [PyStr.ofChars, List.length_map, Sha256.length_hexdigest] at long
  cases long

theorem encode_isSome_of_plain {v : Json} (plain : ∀ n, ¬ Json.HasSurrogate n v) : ∃ text, canonicalJson v = .ok text := by
  obtain ⟨text, some⟩ := Option.isSome_iff_exists.1 ((Json.encode_dumps_isSome_iff v).2 plain)
  exact ⟨text, canonicalJson_eq_ok_iff.2 some⟩

theorem wholeChanges_oneSource (path : PyStr) : wholeChanges noSymbols emptyBase (oneSource path).sources =
    .ok (Dict.empty.set path (changedRecord (hashSource []) [])) := by
  have found : (oneSource path).sources.get? path = some [] := Dict.get?_set_self _ _ _
  have here : candidates emptyBase (oneSource path).sources none = [path] := rfl
  have record : recordOf noSymbols emptyBase (oneSource path).sources path =
      .ok (some (changedRecord (hashSource []) [])) := by
    unfold recordOf
    rw [found]
    rfl
  unfold wholeChanges
  rw [here, List.foldlM_cons]
  unfold change
  rw [record]
  rfl

theorem isRecord_changedRecord {digest : PyStr} (sha : digest.isSha256 = true) :
    isRecord (changedRecord digest []) = true := by
  show (true && digest.isSha256) = true
  rw [sha]
  rfl

theorem exists_made (sourceHashes : Dict PyStr PyStr) {changed : Dict PyStr JsonObject}
    (plain : ∀ n, ¬ (changedJson changed).HasSurrogate n) (records : ∀ e ∈ changed.entries, isRecord e.2 = true) :
    ∃ identity generation d document, identity =
        ({ emptyBase with sourceHashes } : Base).identity emptyGeneration "w" changed ∧
      digest identity.toJson = .ok generation ∧ (identity.fields generation "now").make = .ok d ∧
        canonicalJson d.toDict = .ok document ∧ d.toIdentity = identity := by
  obtain ⟨text, canonical⟩ : ∃ text, canonicalJson (emptyBase.identity emptyGeneration "w" changed).toJson = .ok text := by
    refine encode_isSome_of_plain fun n => ?_
    simp only [Identity.toJson, Base.identity, emptyBase, emptyGeneration, DELTA_SCHEMA, MANIFEST_SCHEMA,
      Json.HasSurrogate, Json.FieldsHaveSurrogate, Json.FieldHasSurrogate, Json.surrogate_notMem_ofChars, plain n, or_self,
      not_false_eq_true]
  let generation := PyStr.ofChars (Sha256.hexdigest text)
  let f : Fields := (emptyBase.identity emptyGeneration "w" changed).fields generation "now"
  have init : f.postInit = .ok () := by
    have base : emptyGeneration.isSha256 = true := by decide +kernel
    have snapshot : emptyBase.snapshotSha256.isSha256 = true := by decide +kernel
    have texts : ∀ t ∈ ([DELTA_SCHEMA, emptyGeneration, "unknown", "config", MANIFEST_SCHEMA, emptyBase.snapshotSha256, "w",
        "now"] : List PyStr), t.strip ≠ [] := by decide +kernel
    simp only [List.forall_mem_cons] at texts
    obtain ⟨schema, generation, commit, fingerprint, baseSchema, sha, worktree, now, -⟩ := texts
    refine postInit_eq_ok_iff.2
      ⟨?_, isSha256_hexdigest text, base, rfl, rfl, snapshot, isSha256_hexdigest text, records⟩
    unfold Fields.texts
    simp only [List.forall_mem_cons]
    exact ⟨schema, strip_hexdigest text, generation, commit, fingerprint, baseSchema, sha, worktree, now,
      strip_hexdigest text, fun _ mem => by cases mem⟩
  obtain ⟨document, published⟩ : ∃ text, canonicalJson f.toDict = .ok text := by
    refine encode_isSome_of_plain fun n => ?_
    simp only [Fields.toDict, f, Identity.fields, generation, Base.identity, emptyBase, emptyGeneration, DELTA_SCHEMA,
      MANIFEST_SCHEMA, Json.HasSurrogate, Json.FieldsHaveSurrogate,
      Json.FieldHasSurrogate, Json.surrogate_notMem_ofChars, plain n, or_self, not_false_eq_true]
  obtain ⟨d, same⟩ : ∃ d : Delta, d.toFields = f := ⟨{ toFields := f, valid := init }, rfl⟩
  exact ⟨emptyBase.identity emptyGeneration "w" changed, generation, d, document, rfl,
    digest_eq_ok_iff.2 ⟨text, canonical, rfl⟩, make_eq_ok_iff.2 same, by rw [same]; exact published,
    congrArg Fields.toIdentity same⟩

theorem exists_created (l : List Char) : ∃ d files', createDelta noSymbols "now" (oneSource (PyStr.ofChars l)) .empty
    emptyBase emptyGeneration "w" none none = .ok (d, files') ∧ d.toIdentity =
      emptyBase.identity emptyGeneration "w" (Dict.empty.set (PyStr.ofChars l) (changedRecord (hashSource []) [])) := by
  let changed : Dict PyStr JsonObject := Dict.empty.set (PyStr.ofChars l) (changedRecord (hashSource []) [])
  have plain (n : Fin 2048) : ¬ (changedJson changed).HasSurrogate n := by
    show ¬ Json.HasSurrogate n (.obj [(PyStr.ofChars l, .obj [("sha256", .str (hashSource [])), ("tombstone", .bool false),
      ("symbols", .arr [])])])
    simp only [hashSource, Json.HasSurrogate, Json.FieldsHaveSurrogate, Json.FieldHasSurrogate, Json.ItemsHaveSurrogate,
      Json.surrogate_notMem_ofChars, or_self, not_false_eq_true]
  obtain ⟨identity, generation, d, document, rfl, named, made, published, same⟩ := exists_made .empty plain fun e mem => by
    rw [List.mem_singleton.1 mem]
    exact isRecord_changedRecord (isSha256_hexdigest [])
  refine ⟨d, Dict.empty.set (d.worktreeId, d.deltaGeneration) document, ?_, same⟩
  refine bind_ok.2 ⟨(), by decide +kernel, bind_ok.2 ⟨(), rfl, ?_⟩⟩
  refine bind_ok.2 ⟨none, rfl, bind_ok.2 ⟨(oneSource (PyStr.ofChars l)).sources, rfl, ?_⟩⟩
  refine bind_ok.2 ⟨(), rfl, bind_ok.2 ⟨changed, wholeChanges_oneSource _, ?_⟩⟩
  refine bind_ok.2 ⟨generation, named, bind_ok.2 ⟨d, made, ?_⟩⟩
  show publish .empty d = _
  exact bind_ok.2 ⟨document, published, rfl⟩

/-- The delta of a file that was added composes. -/
theorem delta_composes_iff_added : ∃ d files', createDelta noSymbols "now" (oneSource "a.py") .empty emptyBase
      emptyGeneration "w" none none = .ok (d, files') ∧
    Composes (oneSource "a.py") files' emptyBase emptyGeneration "w" none d ∧
    ∃ d', loadDelta files' "w" d.deltaGeneration = .ok d' ∧
      (Accepts (oneSource "a.py") files' emptyBase emptyGeneration "w" d.deltaGeneration none ↔
        Agrees (oneSource "a.py") emptyBase d'.changed) := by
  obtain ⟨d, files', ran, identity⟩ := exists_created "a.py".toList
  have composes := (delta_composes_iff noSymbols emptyBase emptyGeneration "w" none).2 "now" _ _ files' d ran
  have apart : ¬ Collides noSymbols (oneSource "a.py") emptyBase emptyGeneration "w" d := by
    rintro ⟨changed, text, text', changes, first, second, differ, -⟩
    cases (wholeChanges_oneSource "a.py").symm.trans changes
    rw [identity] at first
    exact differ (Except.ok.inj (first.symm.trans second))
  have composes := (composes.resolve_left apart).2 fun p differ => by
    by_cases here : p = "a.py"
    · rw [here]
      decide +kernel
    · refine absurd ?_ differ
      rw [get?_hashes]
      show none = ((Dict.empty.set ("a.py" : PyStr) ([] : Bytes)).get? p).map hashSource
      rw [Dict.get?_set, if_neg here]
      rfl
  obtain ⟨d', loaded, belongs, -⟩ := accepts_iff.1 ((composes.accepts (oneSource "a.py")).2 fun p => (composes.reproduces p).symm)
  exact ⟨d, files', ran, composes, d', loaded,
    (delta_composes_iff noSymbols emptyBase emptyGeneration "w" none).1 _ _ _ _ loaded belongs⟩

/-- The delta of a file with a colon as the second character of its name is created, and cannot be loaded. -/
theorem not_delta_composes_colon : ¬ ∀ parse createdAt tree files files' base baseGeneration worktreeId config d,
    createDelta parse createdAt tree files base baseGeneration worktreeId none config = .ok (d, files') →
      Composes tree files' base baseGeneration worktreeId config d := by
  intro all
  obtain ⟨d, files', ran, identity⟩ := exists_created "a:b.py".toList
  have composes := all _ _ _ _ _ _ _ _ _ _ ran
  obtain ⟨d', loaded, -⟩ := accepts_iff.1 ((composes.accepts (oneSource "a:b.py")).2 fun p => (composes.reproduces p).symm)
  have normal := (created_of_createDelta ran).normal d' loaded "a:b.py" (by
    rw [congrArg Identity.changed identity]
    rfl)
  exact absurd normal (by decide +kernel)

end Deltas

end SimplicioFast
