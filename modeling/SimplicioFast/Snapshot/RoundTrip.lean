import SimplicioFast.Snapshot.Packed

/-!
# The round trip of a snapshot

A snapshot that was written has the files, the symbols and the relations that were given, and it is published only when it
can be opened.  A record has a number for the kind of a symbol, and a kind without a number is written as `function`; the
id of a symbol that has one comes back as it was.
-/

namespace SimplicioFast

namespace SnapshotFormat

variable {casefold : PyStr → PyStr} {entries : List FileEntry} {relationList : List Relation} {provenance : Option Json}
  {payload : Bytes} {symbol : Symbol}

/-- What the symbol that is read back has of the symbol that was written. -/
structure KeptAs (casefold : PyStr → PyStr) (symbol read : Symbol) : Prop where
  name : read.name = symbol.name
  qualifiedName : read.qualifiedName = symbol.qualifiedName
  kind : read.kind = normalizeKind casefold symbol.kind
  file : read.file = symbol.file
  line : read.line = symbol.line
  endLine : read.endLine = symbol.endLine
  signature : read.signature = symbol.signature
  symbolId : (∃ id : Bytes, id.length = 32 ∧ symbol.symbolId = PyStr.ofChars (Bytes.hex id)) →
    read.symbolId = symbol.symbolId

theorem keptAs_readBack (symbol : Symbol) : KeptAs casefold symbol (readBack casefold symbol) where
  name := rfl
  qualifiedName := rfl
  kind := rfl
  file := rfl
  line := rfl
  endLine := rfl
  signature := rfl
  symbolId := by
    rintro ⟨id, length, same⟩
    rw [readBack, same, (PyStr.chars?_eq_some_iff _ _).2 rfl, Option.bind_some, Bytes.fromHex_hex, Option.getD_some,
      Struct.blob_eq_self length]

/-- A snapshot that was written is opened again, with the files and their digests, the symbols in the order of their
records and all relations. -/
theorem kept_of_buildV2 (digests : ∀ e ∈ entries, e.digest.length = 32)
    (built : buildV2 casefold entries relationList provenance = .ok payload) :
    ∃ s found read, openSnapshot payload = .ok s ∧ files s = .ok (entries.map fun e => (e.path, e.digest)) ∧
      symbols s = .ok found ∧ List.Forall₂ (KeptAs casefold) (sortedSymbols casefold entries) found ∧
      relations s = .ok read ∧ read.Perm (relationList.map relationValue) := by
  obtain ⟨s, opened, hasFiles, hasSymbols, hasRelations⟩ := readBack_of_buildV2 built
  refine ⟨s, _, _, opened, ?_, hasSymbols, ?_, hasRelations, ?_⟩
  · rw [hasFiles]
    refine congrArg Except.ok (List.map_congr_left fun e mem => ?_)
    rw [Struct.blob_eq_self (digests e mem)]
  · rw [List.forall₂_map_right_iff, List.forall₂_same]
    exact fun symbol _ => keptAs_readBack symbol
  · exact (List.perm_insertionSort _ _).map relationValue

/-! ## A delegate -/

def delegateEntry : FileEntry := ⟨"f", List.replicate 32 0, 0, [{
  name := "d"
  qualifiedName := "d"
  kind := "delegate"
  file := "f"
  line := 1
  endLine := 1 }]⟩

theorem built_delegate : ∃ payload, buildV2 PyStr.asciiCasefold [delegateEntry] [] none = .ok payload := by
  have ran : (buildV2 PyStr.asciiCasefold [delegateEntry] [] none).toOption.map (fun _ => ()) = some () := by
    rw [buildV2_eq_draft]
    decide +kernel
  obtain ⟨payload, built, -⟩ := Except.exists_of_map_toOption ran
  exact ⟨payload, built⟩

theorem digests_delegate : ∀ e ∈ [delegateEntry], e.digest.length = 32 := by
  intro e mem
  rw [List.mem_singleton.1 mem]
  rfl

/-- The snapshot with the delegate is opened again. -/
theorem kept_delegate : ∃ payload, buildV2 PyStr.asciiCasefold [delegateEntry] [] none = .ok payload ∧
    ∃ s found read, openSnapshot payload = .ok s ∧ files s = .ok [("f", List.replicate 32 0)] ∧ symbols s = .ok found ∧
      List.Forall₂ (KeptAs PyStr.asciiCasefold) (sortedSymbols PyStr.asciiCasefold [delegateEntry]) found ∧
      relations s = .ok read ∧ read.Perm [] := by
  obtain ⟨payload, built⟩ := built_delegate
  exact ⟨payload, built, kept_of_buildV2 digests_delegate built⟩

/-- Not every symbol is read back as it was given. -/
theorem not_same_delegate : ¬ ∀ entries relationList provenance payload, (∀ e ∈ entries, e.digest.length = 32) →
    buildV2 PyStr.asciiCasefold entries relationList provenance = .ok payload →
    ∃ s, openSnapshot payload = .ok s ∧ symbols s = .ok (sortedSymbols PyStr.asciiCasefold entries) := by
  intro same
  obtain ⟨payload, built⟩ := built_delegate
  obtain ⟨s, opened, -, hasSymbols, -⟩ := readBack_of_buildV2 built
  obtain ⟨s', opened', hasSymbols'⟩ := same _ _ _ payload digests_delegate built
  cases opened.symm.trans opened'
  have kinds := congrArg (fun found => (found.toOption.getD []).map Symbol.kind) (hasSymbols.symm.trans hasSymbols')
  revert kinds
  decide

end SnapshotFormat

end SimplicioFast
