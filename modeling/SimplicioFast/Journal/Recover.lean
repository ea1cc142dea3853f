import Mathlib.Data.List.TakeWhile
import SimplicioFast.Journal.Change

/-!
# Recovery of the source change journal

A journal file that `read` accepts is a header line and lines that continue the chain (`Continues`).  A prefix of it is
the lines that are complete and a cut of the next one.  Where the header line is complete, `recover` leaves the complete
records and `append` goes on behind them.  Where it is not, there is no line feed in the prefix: `recover` raises, or it
leaves an empty file, which every later operation refuses (`recovers_iff`).
-/

namespace SimplicioFast

open Machine

/-! ## Events on their lines -/

namespace ChangeEvent

variable {e : ChangeEvent}

/-- No value of the event is an array or an object. -/
def Flat (e : ChangeEvent) : Prop := ∀ f ∈ e.fields, f.2.IsFlat

/-- The event with the surrogate pairs in its strings joined. -/
def joined (e : ChangeEvent) : ChangeEvent where
  sequence := e.sequence.joinValues
  eventType := e.eventType.joinValues
  path := e.path.joinValues
  generation := e.generation.joinValues
  commit := e.commit.joinValues
  beforeSha256 := e.beforeSha256.joinValues
  afterSha256 := e.afterSha256.joinValues
  prevHash := e.prevHash.joinValues
  recordHash := e.recordHash.joinValues

theorem joinFields_fields (e : ChangeEvent) : Json.joinFields e.fields = e.joined.fields := rfl

@[simp] theorem toJson_joined (e : ChangeEvent) : e.joined.toJson = e.toJson := by
  show Json.dumps true (Json.joinValues e.asdict) = Json.dumps true e.asdict
  rw [Json.dumps_joinValues]

theorem dumps_material_joined (e : ChangeEvent) : e.joined.material.dumps true = e.material.dumps true := by
  show Json.dumps true (Json.joinValues e.material) = Json.dumps true e.material
  rw [Json.dumps_joinValues]

theorem nodup_keys (e : ChangeEvent) : (e.fields.map Prod.fst).Nodup := by
  show ([("sequence" : PyStr), "event_type", "path", "generation", "commit", "before_sha256", "after_sha256",
    "prev_hash", "record_hash"] : List PyStr).Nodup
  decide

theorem unpaired_keys (e : ChangeEvent) : ∀ k ∈ e.fields.map Prod.fst, k.Unpaired := by
  intro k mem
  obtain ⟨f, inside, rfl⟩ := List.mem_map.1 mem
  simp only [fields, materialFields, List.cons_append, List.nil_append, List.mem_cons, List.not_mem_nil,
    or_false] at inside
  rcases inside with rfl | rfl | rfl | rfl | rfl | rfl | rfl | rfl | rfl <;> exact PyStr.unpaired_ofChars _

theorem flat_joined (flat : e.Flat) : e.joined.Flat := by
  intro f mem
  rw [← joinFields_fields, Json.joinFields_eq_map] at mem
  obtain ⟨g, inside, rfl⟩ := List.mem_map.1 mem
  have value := flat g inside
  obtain ⟨k, v⟩ := g
  exact Json.isFlat_joinValues value

theorem ofValue_sortKeys (flat : e.Flat) : ofValue (Json.sortKeys e.asdict) = some e := by
  have found {k : PyStr} {v : Json} (h : Dict.find e.fields k = some v) :
      Dict.find (Json.sortedFields e.fields) k = some v := Json.find_sortedFields_of_isFlat flat e.nodup_keys h
  have size : (Json.sortedFields e.fields).length = 9 := by
    rw [(Json.sortedFields_perm _).length_eq, Json.length_sortFields]
    rfl
  show ofValue (.obj (Json.sortedFields e.fields)) = some e
  simp only [ofValue, Option.bind_eq_bind]
  rw [found rfl, Option.bind_some, found rfl, Option.bind_some, found rfl, Option.bind_some, found rfl,
    Option.bind_some, found rfl, Option.bind_some, found rfl, Option.bind_some, found rfl, Option.bind_some,
    found rfl, Option.bind_some, found rfl, Option.bind_some, if_pos size]

end ChangeEvent

namespace ChangeJournal

variable {e : ChangeEvent} {es out : List ChangeEvent} {lines : List Bytes}

theorem lineOf_eq (e : ChangeEvent) : lineOf e = PyStr.encodeAscii (e.asdict.dumps true ++ [.scalar '\n']) := by
  rw [PyStr.encodeAscii, List.map_append]
  rfl

theorem parseLine_lineOf (flat : e.Flat) : parseLine (lineOf e) = some e.joined := by
  have text := Json.decode_encodeAscii_dumps e.asdict [.scalar '\n'] (by decide)
  have value : Json.loads (e.asdict.dumps true ++ [.scalar '\n']) = some (Json.sortKeys (.obj e.joined.fields)) :=
    Json.loads_dumps_flat flat e.nodup_keys e.unpaired_keys (by decide)
  rw [parseLine, lineOf_eq, text, Option.bind_some, value, Option.bind_some]
  exact ChangeEvent.ofValue_sortKeys (ChangeEvent.flat_joined flat)

theorem splitLines_lineOf (e : ChangeEvent) : Bytes.splitLines (lineOf e) = [lineOf e] :=
  Bytes.splitLines_line (Json.plain_encodeAscii_dumps e.asdict)

theorem getLast?_lineOf (e : ChangeEvent) : (lineOf e).getLast? = some 10 := List.getLast?_concat

/-! ## The chain -/

/-- The lines are records that continue the chain of `es` to `out`. -/
inductive Continues : List ChangeEvent → List Bytes → List ChangeEvent → Prop
  | nil (es : List ChangeEvent) : Continues es [] es
  | cons {es out : List ChangeEvent} {line : Bytes} {lines : List Bytes} {e : ChangeEvent}
      (ended : line.getLast? = some 10) (parsed : parseLine line = some e) (verified : verifyEvent e es = .ok ())
      (rest : Continues (es ++ [e]) lines out) : Continues es (line :: lines) out

theorem Continues.readLines_append (h : Continues es lines out) (recover : Bool) (index : ℕ) (rest : List Bytes) :
    readLines recover es index (lines ++ rest) = readLines recover out (index + lines.length) rest := by
  induction h generalizing index with
  | nil => rfl
  | cons ended parsed verified _ ih =>
    rw [List.cons_append, readLines, if_neg (not_not_intro ended), parsed]
    show (verifyEvent _ _ >>= _) = _
    rw [verified]
    show readLines _ _ _ _ = _
    rw [ih, List.length_cons, Nat.add_assoc, Nat.add_comm 1]

theorem Continues.readLines_eq (h : Continues es lines out) (recover : Bool) (index : ℕ) :
    readLines recover es index lines = .ok out := by
  have step := h.readLines_append recover index []
  rw [List.append_nil] at step
  rw [step, readLines]

theorem continues_of_readLines {index : ℕ} (h : readLines false es index lines = .ok out) :
    Continues es lines out := by
  induction lines generalizing es index with
  | nil =>
    rw [readLines] at h
    cases h
    exact .nil _
  | cons line lines ih =>
    rw [readLines] at h
    split_ifs at h with ended
    · rename_i no
      rw [Bool.false_and] at no
      cases no
    · cases parsed : parseLine line with
      | none =>
        rw [parsed] at h
        cases h
      | some event =>
        rw [parsed] at h
        obtain ⟨_, verified, rest⟩ := bind_ok.1 h
        exact .cons (not_not.1 ended) parsed verified (ih rest)

theorem Continues.ended (h : Continues es lines out) : ∀ line ∈ lines, line.getLast? = some 10 := by
  induction h with
  | nil => exact fun _ mem => by cases mem
  | cons ended _ _ _ ih => exact List.forall_mem_cons.2 ⟨ended, ih⟩

theorem Continues.exists_events (h : Continues es lines out) :
    ∃ added, out = es ++ added ∧ added.length = lines.length := by
  induction h with
  | nil es => exact ⟨[], (List.append_nil es).symm, rfl⟩
  | @cons es _ _ _ e _ _ _ _ ih =>
    obtain ⟨added, rfl, size⟩ := ih
    refine ⟨e :: added, List.append_assoc es [e] added, ?_⟩
    rw [List.length_cons, List.length_cons, size]

theorem Continues.split {front back : List Bytes} (h : Continues es (front ++ back) out) :
    ∃ mid, Continues es front mid ∧ Continues mid back out := by
  induction front generalizing es with
  | nil => exact ⟨es, .nil es, h⟩
  | cons line front ih =>
    cases h with
    | cons ended parsed verified rest =>
      obtain ⟨mid, first, second⟩ := ih rest
      exact ⟨mid, .cons ended parsed verified first, second⟩

theorem Continues.of_append {front back : List Bytes} (h : Continues [] (front ++ back) out) :
    Continues [] front (out.take front.length) := by
  obtain ⟨mid, first, second⟩ := h.split
  obtain ⟨events, same, size⟩ := first.exists_events
  rw [List.nil_append] at same
  rw [← same] at size
  obtain ⟨added, rfl, -⟩ := second.exists_events
  have taken : (mid ++ added).take front.length = mid := List.take_left' size
  rw [taken]
  exact first

theorem Continues.append {mid : List ChangeEvent} {back : List Bytes} (first : Continues es lines mid)
    (second : Continues mid back out) : Continues es (lines ++ back) out := by
  induction first with
  | nil => exact second
  | cons ended parsed verified _ ih => exact .cons ended parsed verified (ih second)

/-- The hash that the next event must name is a text without surrogate pairs. -/
def Linked (es : List ChangeEvent) : Prop := ∃ p : PyStr, lastHash es = .str p ∧ p.Unpaired

theorem linked_nil : Linked [] := ⟨ZERO_HASH, rfl, PyStr.unpaired_ofChars _⟩

theorem linked_snoc (verified : verifyEvent e es = .ok ()) : Linked (es ++ [e]) := by
  unfold verifyEvent at verified
  split_ifs at verified
  split at verified
  · rename_i prevHash _
    split_ifs at verified with same
    refine ⟨hashOf prevHash e, ?_, PyStr.unpaired_ofChars _⟩
    rw [lastHash, List.getLast?_concat]
    cases hash : e.recordHash with
    | str s =>
      rw [hash] at same
      show e.recordHash = _
      rw [hash]
      exact congrArg Json.str (of_decide_eq_true same)
    | _ =>
      rw [hash] at same
      cases same
  · cases verified

theorem Continues.linked (h : Continues es lines out) (linked : Linked es) : Linked out := by
  induction h with
  | nil => exact linked
  | cons _ _ verified _ ih => exact ih (linked_snoc verified)

/-! ## Accepted files -/

/-- The file is a header line and lines that continue the chain to the given events. -/
structure Accepted (file header : Bytes) (lines : List Bytes) (events : List ChangeEvent) : Prop where
  split : Bytes.splitLines file = header :: lines
  checked : checkHeader header = .ok ()
  chain : Continues [] lines events

variable {file header : Bytes} {events : List ChangeEvent} {k : ℕ}

theorem Accepted.read_eq (h : Accepted file header lines events) (recover : Bool) :
    read (some file) recover = .ok events := by
  rw [read, h.split]
  show (checkHeader header >>= _) = _
  rw [h.checked]
  exact h.chain.readLines_eq recover 1

/-- `read` accepts exactly the accepted files. -/
theorem exists_accepted (h : read (some file) false = .ok events) :
    ∃ header lines, Accepted file header lines events := by
  rw [read] at h
  split at h
  · cases h
  · rename_i header lines split
    obtain ⟨_, checked, chain⟩ := bind_ok.1 h
    exact ⟨header, lines, split, checked, continues_of_readLines chain⟩

/-- The events of the lines that are complete in the first `k` bytes of the file; the first line is the header. -/
def completeEvents (file : Bytes) (k : ℕ) (events : List ChangeEvent) : List ChangeEvent :=
  events.take ((Frames.complete id k (Bytes.splitLines file)).length - 1)

theorem Accepted.take (h : Accepted file header lines events) (feed : 10 ∈ file.take k) :
    ∃ front kept cut, file.take k = front ++ cut ∧ 10 ∉ cut ∧ front.getLast? = some 10 ∧
      Bytes.splitLines (file.take k) = header :: kept ++ (if cut = [] then [] else [cut]) ∧
      Accepted front header kept (completeEvents file k events) := by
  obtain ⟨cut, split, plain⟩ := Bytes.splitLines_take k file
  have bytes : file.take k = (Frames.complete id k (Bytes.splitLines file)).flatten ++ cut := by
    have joined := congrArg List.flatten split
    rw [Bytes.flatten_splitLines, List.flatten_append] at joined
    rw [joined]
    by_cases e : cut = []
    · rw [if_pos e, e]
      rfl
    · rw [if_neg e, List.flatten_singleton]
  have first := Frames.complete_isPrefix id k (Bytes.splitLines file)
  have whole := Bytes.splitLines_flatten_of_isPrefix first
  unfold completeEvents
  cases lead : Frames.complete id k (Bytes.splitLines file) with
  | nil =>
    rw [lead] at bytes
    rw [bytes] at feed
    exact absurd feed plain
  | cons l kept =>
    rw [lead] at split bytes first whole
    rw [h.split] at first
    obtain ⟨rfl, behind⟩ := List.cons_prefix_cons.1 first
    obtain ⟨back, rfl⟩ := behind
    refine ⟨(l :: kept).flatten, kept, cut, bytes, plain, ?_, split, whole, h.checked, h.chain.of_append⟩
    rcases List.eq_nil_or_concat kept with rfl | ⟨init, last, rfl⟩
    · have inside : 10 ∈ l := by
        rw [bytes, List.flatten_singleton] at feed
        exact (List.mem_append.1 feed).resolve_right plain
      have line := (Bytes.lines_splitLines file l (by rw [h.split]; exact List.mem_cons_self)).2
      rw [List.flatten_singleton]
      rcases List.eq_nil_or_concat l with rfl | ⟨body, b, rfl⟩
      · cases inside
      · rw [List.concat_eq_append, List.dropLast_concat] at line
        rw [List.concat_eq_append, List.getLast?_concat]
        rw [List.concat_eq_append] at inside
        exact congrArg some (List.mem_singleton.1 ((List.mem_append.1 inside).resolve_left line)).symm
    · have ended := h.chain.ended last (by simp)
      rw [List.concat_eq_append, List.flatten_cons, List.flatten_append, List.flatten_singleton, ← List.append_assoc,
        List.getLast?_append, ended]
      rfl

theorem Accepted.read_recover {front cut : Bytes} {kept : List Bytes} (plain : 10 ∉ cut)
    (split : Bytes.splitLines (front ++ cut) = header :: kept ++ (if cut = [] then [] else [cut]))
    (h : Accepted front header kept events) : read (some (front ++ cut)) true = .ok events := by
  rw [read, split]
  show (checkHeader header >>= _) = _
  rw [h.checked]
  show readLines true [] 1 (kept ++ if cut = [] then [] else [cut]) = _
  rw [h.chain.readLines_append true 1]
  by_cases e : cut = []
  · rw [if_pos e, readLines]
  · have unended : cut.getLast? ≠ some 10 := fun ended => plain (List.mem_of_getLast? ended)
    rw [if_neg e, readLines, if_pos unended]
    rfl

theorem dropWhile_reverse {front cut : Bytes} (plain : 10 ∉ cut) (ended : front.getLast? = some 10) :
    ((front ++ cut).reverse.dropWhile (· ≠ 10)).reverse = front := by
  have behind : ∀ b ∈ cut.reverse, decide (b ≠ 10) = true := by
    intro b mem
    rw [decide_eq_true_eq]
    rintro rfl
    exact plain (List.mem_reverse.1 mem)
  rcases List.eq_nil_or_concat front with rfl | ⟨body, b, rfl⟩
  · cases ended
  · rw [List.concat_eq_append, List.getLast?_concat] at ended
    cases ended
    rw [List.reverse_append, List.dropWhile_append_of_pos behind, List.concat_eq_append, List.reverse_append,
      List.reverse_singleton, List.singleton_append, List.dropWhile_cons_of_neg (by simp), List.reverse_cons,
      List.reverse_reverse]

/-! ## Appending behind an accepted file -/

theorem verifyEvent_of_eq {p : PyStr} (sequence : e.sequence = .int (es.length + 1)) (prevHash : e.prevHash = .str p)
    (last : lastHash es = .str p) (recordHash : e.recordHash = .str (hashOf p e)) : verifyEvent e es = .ok () := by
  have number : Json.pyEq (.int (es.length + 1)) (.int (es.length + 1)) = true := decide_eq_true rfl
  have text (t : PyStr) : Json.pyEq (.str t) (.str t) = true := decide_eq_true rfl
  rw [verifyEvent, sequence, prevHash, last, number, text]
  show (if Json.pyEq e.recordHash (.str (hashOf p e)) = true then _ else _) = _
  rw [recordHash, if_pos (text _)]

/-- The event that `append` writes is flat, and as it is read it continues the chain. -/
theorem exists_flat_sealEvent (linked : Linked es) (entry : Entry) :
    (sealEvent (draft es entry)).Flat ∧ verifyEvent (sealEvent (draft es entry)).joined es = .ok () := by
  obtain ⟨p, last, unpaired⟩ := linked
  have sealed : sealEvent (draft es entry) = { draft es entry with recordHash := .str (hashOf p (draft es entry)) } := by
    have chained : (draft es entry).prevHash = .str p := last
    unfold sealEvent
    split
    · rename_i found
      cases chained.symm.trans found
      rfl
    · rename_i other
      exact absurd chained (other _)
  constructor
  · rw [sealed]
    simp only [ChangeEvent.Flat, ChangeEvent.fields, ChangeEvent.materialFields, draft, last, List.cons_append,
      List.nil_append, List.forall_mem_cons, List.not_mem_nil, false_implies, implies_true, and_true]
    exact ⟨trivial, trivial, trivial, trivial, Json.isFlat_optStr _, Json.isFlat_optStr _, Json.isFlat_optStr _,
      trivial, trivial⟩
  · have sequence : (sealEvent (draft es entry)).joined.sequence = .int (es.length + 1) := by
      rw [sealed]
      rfl
    have prevHash : (sealEvent (draft es entry)).joined.prevHash = .str p := by
      rw [sealed]
      show Json.joinValues (lastHash es) = _
      rw [last]
      exact congrArg Json.str (PyStr.joinPairs_of_unpaired unpaired)
    have hash : hashOf p (sealEvent (draft es entry)).joined = hashOf p (draft es entry) := by
      rw [hashOf, ChangeEvent.dumps_material_joined, sealed]
      rfl
    have recordHash : (sealEvent (draft es entry)).joined.recordHash = .str (hashOf p (draft es entry)) := by
      rw [sealed]
      exact congrArg Json.str (PyStr.joinPairs_of_unpaired (PyStr.unpaired_ofChars _))
    exact verifyEvent_of_eq sequence prevHash last (by rw [recordHash, hash])

/-- Behind an accepted file that ends with a line feed, `append` adds the event. -/
theorem Accepted.append {entry checked : Entry} (h : Accepted file header lines events)
    (ended : file.getLast? = some 10) (valid : checkEntry entry = .ok checked) :
    ∃ event, ChangeJournal.append (some file) entry = (some (file ++ lineOf event), .ok event) ∧
      Accepted (file ++ lineOf event) header (lines ++ [lineOf event]) (events ++ [event.joined]) := by
  obtain ⟨flat, verified⟩ := exists_flat_sealEvent (h.chain.linked linked_nil) checked
  refine ⟨sealEvent (draft events checked), ?_, ?_, h.checked, h.chain.append ?_⟩
  · unfold ChangeJournal.append
    rw [valid]
    dsimp only
    rw [h.read_eq false]
    rfl
  · rw [Bytes.splitLines_append ended, h.split, splitLines_lineOf]
    rfl
  · exact .cons (getLast?_lineOf _) (parseLine_lineOf flat) verified (.nil _)

/-! ## Recovery of a prefix -/

/-- `recover` returns and leaves a journal that holds the given events, behind which `append` adds every valid entry. -/
structure Recovers (es : List ChangeEvent) (file : Option Bytes) : Prop where
  returns : ∃ report, (recover file).2 = .ok report
  holds : read (recover file).1 false = .ok es
  appends : ∀ entry checked, checkEntry entry = .ok checked →
    ∃ event added, (append (recover file).1 entry).2 = .ok event ∧ added.toJson = event.toJson ∧
      read (append (recover file).1 entry).1 false = .ok (es ++ [added])

/-- Without a line feed, `recover` raises or leaves an empty file. -/
theorem not_recovers_of_plain {raw : Bytes} (plain : 10 ∉ raw) : ¬ Recovers es (some raw) := by
  rintro ⟨⟨report, returned⟩, holds, -⟩
  unfold recover at returned holds
  cases known : read (some raw) true with
  | error x =>
    rw [known] at returned
    cases returned
  | ok events =>
    rw [known] at holds
    dsimp only at holds
    have full : raw ≠ [] := by
      rintro rfl
      cases known
    have unended : raw.getLast? ≠ some 10 := fun ended => plain (List.mem_of_getLast? ended)
    have cutOff : (raw.reverse.dropWhile (· ≠ 10)).reverse = [] := by
      rw [List.reverse_eq_nil_iff, List.dropWhile_eq_nil_iff]
      intro b mem
      rw [decide_eq_true_eq]
      rintro rfl
      exact plain (List.mem_reverse.1 mem)
    rw [Option.getD_some, if_pos ⟨full, unended⟩, cutOff] at holds
    cases holds

/-- `recover` leaves the complete records of a prefix, and `append` goes on behind them, exactly when the prefix holds
a line feed. -/
theorem recovers_iff (accepted : read (some file) false = .ok events) (k : ℕ) :
    Recovers (completeEvents file k events) (some (file.take k)) ↔ 10 ∈ file.take k := by
  constructor
  · intro h
    by_contra plain
    exact not_recovers_of_plain plain h
  · intro feed
    obtain ⟨header, lines, accepted⟩ := exists_accepted accepted
    obtain ⟨front, kept, cut, bytes, plain, ended, split, accepted⟩ := accepted.take feed
    rw [bytes] at split ⊢
    have known := accepted.read_recover plain split
    have left : (recover (some (front ++ cut))).1 = some front := by
      unfold recover
      rw [known]
      dsimp only
      rw [Option.getD_some]
      split_ifs with torn
      · rw [dropWhile_reverse plain ended]
      · by_cases e : cut = []
        · rw [e, List.append_nil]
        · have last : (front ++ cut).getLast? = cut.getLast? := List.getLast?_append_of_ne_nil _ e
          refine absurd ⟨by simp [e], ?_⟩ torn
          rw [last]
          exact fun ended => plain (List.mem_of_getLast? ended)
    refine ⟨?_, ?_, fun entry checked valid => ?_⟩
    · unfold recover
      rw [known]
      dsimp only
      split_ifs
      · exact ⟨_, rfl⟩
      · exact ⟨_, rfl⟩
    · rw [left]
      exact accepted.read_eq false
    · rw [left]
      obtain ⟨event, appended, accepted⟩ := accepted.append ended valid
      refine ⟨event, event.joined, ?_, event.toJson_joined, ?_⟩
      · rw [appended]
      · rw [appended]
        exact accepted.read_eq false

/-! ## The files that append writes -/

/-- A file that begins with the header line that `append` writes. -/
def Written (file : Bytes) : Prop :=
  ∃ lines events, Accepted file headerLine lines events ∧ file.getLast? = some 10

theorem checkHeader_headerLine : checkHeader headerLine = .ok () := by decide +kernel

theorem getLast?_headerLine : headerLine.getLast? = some 10 := List.getLast?_concat

theorem accepted_headerLine : Accepted headerLine headerLine [] [] :=
  ⟨Bytes.splitLines_line (Json.plain_encodeAscii_dumps HEADER), checkHeader_headerLine, .nil []⟩

/-- One call of `append`. -/
def step (file : Option Bytes) (entry : Entry) : Option Bytes := (append file entry).1

theorem append_none (entry : Entry) : append none entry = (match append (some headerLine) entry with
    | (_, .error x) => (none, .error x)
    | returned => returned) := by
  unfold append
  rw [accepted_headerLine.read_eq false]
  cases checkEntry entry <;> rfl

/-! ## A file with one event -/

def firstEntry : Entry where
  eventType := "create"
  path := "a.py"
  generation := "g1"

def firstEvent : ChangeEvent := sealEvent (draft [] firstEntry)

def firstFile : Bytes := headerLine ++ lineOf firstEvent

theorem append_firstEntry :
    append none firstEntry = (some firstFile, .ok firstEvent) ∧
      Accepted firstFile headerLine [lineOf firstEvent] [firstEvent.joined] := by
  have valid : checkEntry firstEntry = .ok firstEntry := by rfl
  obtain ⟨event, appended, accepted⟩ := accepted_headerLine.append getLast?_headerLine valid
  have same : event = firstEvent := by
    unfold append at appended
    rw [valid, accepted_headerLine.read_eq false] at appended
    exact (Except.ok.inj (congrArg Prod.snd appended)).symm
  rw [same] at appended accepted
  exact ⟨by rw [append_none, appended]; rfl, accepted⟩

theorem recovers_iff_firstFile :
    Recovers (completeEvents firstFile 70 [firstEvent.joined]) (some (firstFile.take 70)) ↔ 10 ∈ firstFile.take 70 :=
  recovers_iff (append_firstEntry.2.read_eq false) 70

/-- A crash inside the header line leaves a journal that cannot be recovered. -/
theorem not_recovers_cutHeader :
    append none firstEntry = (some firstFile, .ok firstEvent) ∧
      read (some firstFile) false = .ok [firstEvent.joined] ∧
      ¬ Recovers (completeEvents firstFile 20 [firstEvent.joined]) (some (firstFile.take 20)) := by
  refine ⟨append_firstEntry.1, append_firstEntry.2.read_eq false, not_recovers_of_plain ?_⟩
  have front : firstFile.take 20 = headerLine.take 20 := List.take_append_of_le_length (by decide +kernel)
  rw [front]
  decide +kernel

end ChangeJournal

end SimplicioFast
