import Mathlib.Data.List.Basic

/-!
# Decoding a stream in chunks

A decoder keeps a buffer.  When it is fed a chunk it appends it, and takes items from the front of the buffer until it
has to wait for more; the first item that is bad makes it fail, and then the items that it took before from the same
chunk are lost.  So what is delivered of a stream does not depend on its chunks exactly when no item of it is bad or the
first one is (`delivers_iff`).
-/

namespace SimplicioFast

namespace Chunks

variable {α β ε : Type*}

/-- What stands at the front of a buffer: too little, an item or a bad item, and what is left behind it. -/
inductive Front (α β ε : Type*)
  | wait
  | item (a : α) (rest : List β)
  | bad (e : ε) (rest : List β)

variable (next : List β → Front α β ε)

/-- The loop that takes the items from a buffer: the items or the error, and the buffer that is left. -/
def drain : ℕ → List α → List β → Except ε (List α) × List β
  | 0, items, buffer => (.ok items, buffer)
  | fuel + 1, items, buffer => match next buffer with
    | .wait => (.ok items, buffer)
    | .item a rest => drain fuel (items ++ [a]) rest
    | .bad e rest => (.error e, rest)

/-- The buffer is fed a chunk; no item is empty, so there are at most as many as bytes. -/
def feed (buffer chunk : List β) : Except ε (List α) × List β :=
  drain next (buffer ++ chunk).length [] (buffer ++ chunk)

/-- What is delivered of chunks up to the first error: the items, the error and the buffer that is left. -/
def session : List β → List (List β) → List α × Option ε × List β
  | buffer, [] => ([], none, buffer)
  | buffer, chunk :: chunks => match feed next buffer chunk with
    | (.error e, rest) => ([], some e, rest)
    | (.ok items, rest) => (items ++ (session rest chunks).1, (session rest chunks).2)

/-- The items of a stream, with its error and what is left of it. -/
def itemsOf : ℕ → List β → List α × Option ε × List β
  | 0, b => ([], none, b)
  | fuel + 1, b => match next b with
    | .wait => ([], none, b)
    | .item a rest => (a :: (itemsOf fuel rest).1, (itemsOf fuel rest).2)
    | .bad e rest => ([], some e, rest)

/-- The items of a stream, with its error and what is left of it. -/
def parse (b : List β) : List α × Option ε × List β := itemsOf next b.length b

/-- Items are not empty, and they do not depend on what comes behind them. -/
structure Lawful (next : List β → Front α β ε) : Prop where
  nil : next [] = .wait
  item : ∀ b a rest, next b = .item a rest → ∃ p, p ≠ [] ∧ b = p ++ rest ∧ next p = .item a []
  item_append : ∀ b a rest more, next b = .item a rest → next (b ++ more) = .item a (rest ++ more)
  bad_append : ∀ b e rest more, next b = .bad e rest → next (b ++ more) = .bad e (rest ++ more)

variable {next} {b rest more : List β} {a : α} {e : ε} {fuel : ℕ} {chunks : List (List β)} {items : List α}

namespace Lawful

theorem length_lt (lawful : Lawful next) (h : next b = .item a rest) : rest.length < b.length := by
  obtain ⟨p, nonempty, rfl, -⟩ := lawful.item b a rest h
  have := List.length_pos_iff.2 nonempty
  rw [List.length_append]
  omega

/-! ## The items of a stream -/

theorem itemsOf_congr (lawful : Lawful next) {fuel' : ℕ} (enough : b.length ≤ fuel) (enough' : b.length ≤ fuel') :
    itemsOf next fuel b = itemsOf next fuel' b := by
  induction fuel generalizing b fuel' with
  | zero =>
    obtain rfl := List.eq_nil_of_length_eq_zero (Nat.le_zero.1 enough)
    cases fuel' with
    | zero => rfl
    | succ fuel' => simp only [itemsOf, lawful.nil]
  | succ fuel ih =>
    cases fuel' with
    | zero =>
      obtain rfl := List.eq_nil_of_length_eq_zero (Nat.le_zero.1 enough')
      simp only [itemsOf, lawful.nil]
    | succ fuel' =>
      rw [itemsOf, itemsOf]
      cases front : next b with
      | wait => rfl
      | bad e rest => rfl
      | item a rest =>
        have less := lawful.length_lt front
        simp only [@ih rest fuel' (by omega) (by omega)]

theorem parse_eq (lawful : Lawful next) (b : List β) : parse next b = itemsOf next (b.length + 1) b :=
  lawful.itemsOf_congr (Nat.le_refl _) (Nat.le_succ _)

theorem parse_of_wait (lawful : Lawful next) (front : next b = .wait) : parse next b = ([], none, b) := by
  rw [lawful.parse_eq, itemsOf, front]

theorem parse_of_bad (lawful : Lawful next) (front : next b = .bad e rest) : parse next b = ([], some e, rest) := by
  rw [lawful.parse_eq, itemsOf, front]

theorem parse_of_item (lawful : Lawful next) (front : next b = .item a rest) :
    parse next b = (a :: (parse next rest).1, (parse next rest).2) := by
  have less := lawful.length_lt front
  rw [lawful.parse_eq, itemsOf, front]
  simp only [parse, @itemsOf_congr _ _ _ _ rest b.length lawful _ (by omega) (Nat.le_refl _)]

theorem parse_append (lawful : Lawful next) (b more : List β) : parse next (b ++ more) = match (parse next b).2 with
    | (none, rest) => ((parse next b).1 ++ (parse next (rest ++ more)).1, (parse next (rest ++ more)).2)
    | (some e, rest) => ((parse next b).1, some e, rest ++ more) := by
  induction length : b.length using Nat.strongRecOn generalizing b with
  | ind n ih =>
    cases front : next b with
    | wait =>
      rw [lawful.parse_of_wait front]
      rfl
    | bad e rest => rw [lawful.parse_of_bad front, lawful.parse_of_bad (lawful.bad_append b e rest more front)]
    | item a rest =>
      have less := lawful.length_lt front
      rw [lawful.parse_of_item front, lawful.parse_of_item (lawful.item_append b a rest more front),
        ih rest.length (by omega) rest rfl]
      rcases parse next rest with ⟨as, error, rest'⟩
      cases error <;> rfl

theorem wait_of_parse (lawful : Lawful next) {b rest : List β} {as : List α} (parsed : parse next b = (as, none, rest)) :
    next rest = .wait := by
  induction length : b.length using Nat.strongRecOn generalizing b as with
  | ind n ih =>
    cases front : next b with
    | wait =>
      rw [lawful.parse_of_wait front] at parsed
      cases parsed
      exact front
    | bad e rest =>
      rw [lawful.parse_of_bad front] at parsed
      cases parsed
    | item a rest' =>
      have less := lawful.length_lt front
      rw [lawful.parse_of_item front] at parsed
      obtain ⟨-, behind⟩ := Prod.mk.inj parsed
      exact ih rest'.length (by omega) (Prod.ext rfl behind) rfl

/-! ## The chunks -/

theorem drain_eq (lawful : Lawful next) (enough : b.length ≤ fuel) (items : List α) :
    drain next fuel items b = match (parse next b).2 with
      | (none, rest) => (.ok (items ++ (parse next b).1), rest)
      | (some e, rest) => (.error e, rest) := by
  induction fuel generalizing b items with
  | zero =>
    obtain rfl := List.eq_nil_of_length_eq_zero (Nat.le_zero.1 enough)
    rw [lawful.parse_of_wait lawful.nil, drain, List.append_nil]
  | succ fuel ih =>
    rw [drain]
    cases front : next b with
    | wait => rw [lawful.parse_of_wait front, List.append_nil]
    | bad e rest => rw [lawful.parse_of_bad front]
    | item a rest =>
      have less := lawful.length_lt front
      rw [lawful.parse_of_item front]
      dsimp only
      rw [ih (by omega)]
      rcases parse next rest with ⟨as, error, rest'⟩
      cases error with
      | none => rw [List.append_assoc]; rfl
      | some e => rfl

theorem feed_eq (lawful : Lawful next) (buffer chunk : List β) :
    feed next buffer chunk = match (parse next (buffer ++ chunk)).2 with
      | (none, rest) => (.ok (parse next (buffer ++ chunk)).1, rest)
      | (some e, rest) => (.error e, rest) :=
  lawful.drain_eq (Nat.le_refl _) []

theorem session_of_none (lawful : Lawful next) {buffer : List β} (waits : next buffer = .wait)
    {as : List α} (parsed : parse next (buffer ++ chunks.flatten) = (as, none, rest)) :
    session next buffer chunks = (as, none, rest) := by
  induction chunks generalizing buffer as with
  | nil =>
    rw [List.flatten_nil, List.append_nil, lawful.parse_of_wait waits] at parsed
    exact parsed
  | cons chunk chunks ih =>
    rw [List.flatten_cons, ← List.append_assoc, lawful.parse_append] at parsed
    rw [session, lawful.feed_eq]
    rcases first : parse next (buffer ++ chunk) with ⟨as₁, e₁, rest₁⟩
    rw [first] at parsed
    cases e₁ with
    | some e => cases parsed
    | none =>
      dsimp only at parsed ⊢
      have behind := ih (lawful.wait_of_parse first)
        (Prod.ext rfl (Prod.mk.inj parsed).2)
      rw [behind]
      exact congrArg (·, none, rest) (Prod.mk.inj parsed).1

theorem session_of_first_bad (lawful : Lawful next) {buffer : List β} (waits : next buffer = .wait)
    (parsed : parse next (buffer ++ chunks.flatten) = ([], some e, rest)) :
    (session next buffer chunks).1 = [] ∧ (session next buffer chunks).2.1 = some e := by
  induction chunks generalizing buffer with
  | nil =>
    rw [List.flatten_nil, List.append_nil, lawful.parse_of_wait waits] at parsed
    cases parsed
  | cons chunk chunks ih =>
    rw [List.flatten_cons, ← List.append_assoc, lawful.parse_append] at parsed
    rw [session, lawful.feed_eq]
    rcases first : parse next (buffer ++ chunk) with ⟨as₁, e₁, rest₁⟩
    rw [first] at parsed
    cases e₁ with
    | some e₁ =>
      dsimp only at parsed ⊢
      obtain ⟨-, behind⟩ := Prod.mk.inj parsed
      exact ⟨rfl, (Prod.mk.inj behind).1⟩
    | none =>
      dsimp only at parsed ⊢
      obtain ⟨none, behind⟩ := Prod.mk.inj parsed
      obtain ⟨rfl, empty⟩ := List.append_eq_nil_iff.1 none
      rw [List.nil_append]
      exact ih (lawful.wait_of_parse first) (Prod.ext empty behind)

theorem session_singleton (lawful : Lawful next) (parsed : (parse next b).2 = (some e, rest)) :
    session next [] [b] = ([], some e, rest) := by
  rw [session, lawful.feed_eq, List.nil_append, parsed]

theorem exists_session_ne_nil (lawful : Lawful next) (front : next b = .item a rest) :
    ∃ p, p ++ rest = b ∧ a ∈ (session next [] [p, rest]).1 := by
  obtain ⟨p, -, rfl, alone⟩ := lawful.item b a rest front
  refine ⟨p, rfl, ?_⟩
  have parsed : parse next p = ([a], none, []) := by
    rw [lawful.parse_of_item alone, lawful.parse_of_wait lawful.nil]
  rw [session, lawful.feed_eq, List.nil_append, parsed]
  exact List.mem_append_left _ (List.mem_singleton.2 rfl)

end Lawful

/-- What is delivered of chunks: the items up to the first error, and the error. -/
def delivered (next : List β → Front α β ε) (chunks : List (List β)) : List α × Option ε :=
  ((session next [] chunks).1, (session next [] chunks).2.1)

/-- What is delivered of a stream is its items and its error, whatever its chunks. -/
def Delivers (next : List β → Front α β ε) (s : List β) : Prop :=
  ∀ chunks : List (List β), chunks.flatten = s → delivered next chunks = ((parse next s).1, (parse next s).2.1)

/-- What is delivered of a stream does not depend on its chunks. -/
def Invariant (next : List β → Front α β ε) (s : List β) : Prop :=
  ∀ chunks chunks' : List (List β), chunks.flatten = s → chunks'.flatten = s →
    delivered next chunks = delivered next chunks'

theorem Delivers.invariant {s : List β} (h : Delivers next s) : Invariant next s :=
  fun chunks chunks' whole whole' => (h chunks whole).trans (h chunks' whole').symm

theorem delivers_of_clean (lawful : Lawful next) {s : List β}
    (clean : (parse next s).2.1 = none ∨ (parse next s).1 = []) : Delivers next s := by
  rintro chunks rfl
  rcases parsed : parse next chunks.flatten with ⟨as, error, rest⟩
  rw [parsed] at clean
  cases error with
  | none =>
    unfold delivered
    rw [lawful.session_of_none lawful.nil parsed]
  | some e =>
    obtain rfl : as = [] := clean.resolve_left (Option.some_ne_none e)
    obtain ⟨none, error⟩ := lawful.session_of_first_bad lawful.nil parsed
    exact Prod.ext none error

theorem clean_of_invariant (lawful : Lawful next) {s : List β} (same : Invariant next s) :
    (parse next s).2.1 = none ∨ (parse next s).1 = [] := by
  cases error : (parse next s).2.1 with
  | none => exact .inl rfl
  | some e =>
    right
    have whole := lawful.session_singleton (b := s) (e := e) (Prod.ext error rfl)
    cases front : next s with
    | wait => rw [lawful.parse_of_wait front]
    | bad e rest => rw [lawful.parse_of_bad front]
    | item a rest =>
      obtain ⟨p, split, mem⟩ := lawful.exists_session_ne_nil front
      have equal := same [p, rest] [s] (by simp [split]) (by simp)
      have none := congrArg Prod.fst equal
      unfold delivered at none
      rw [whole] at none
      rw [show (session next [] [p, rest]).1 = [] from none] at mem
      cases mem

theorem delivers_iff (lawful : Lawful next) {s : List β} :
    Delivers next s ↔ (parse next s).2.1 = none ∨ (parse next s).1 = [] :=
  ⟨fun h => clean_of_invariant lawful h.invariant, delivers_of_clean lawful⟩

/-- A bad item stands in the stream behind at least one that is not. -/
def BadBehind (next : List β → Front α β ε) (s : List β) : Prop :=
  ∃ (ps : List (List β)) (behind : List β) (e : ε) (rest : List β), ps ≠ [] ∧
    (∀ p ∈ ps, ∃ a, next p = .item a []) ∧ s = ps.flatten ++ behind ∧ next behind = .bad e rest

theorem exists_parse_flatten (lawful : Lawful next) {ps : List (List β)} (each : ∀ p ∈ ps, ∃ a, next p = .item a [])
    (s : List β) : ∃ as : List α, as.length = ps.length ∧
      parse next (ps.flatten ++ s) = (as ++ (parse next s).1, (parse next s).2) := by
  induction ps with
  | nil => exact ⟨[], rfl, rfl⟩
  | cons p ps ih =>
    obtain ⟨a, first⟩ := each p List.mem_cons_self
    obtain ⟨as, length, parsed⟩ := ih fun q mem => each q (List.mem_cons_of_mem p mem)
    refine ⟨a :: as, congrArg (· + 1) length, ?_⟩
    rw [List.flatten_cons, List.append_assoc, lawful.parse_of_item (lawful.item_append p a [] _ first), List.nil_append,
      parsed]
    rfl

theorem exists_flatten_of_parse (lawful : Lawful next) {s : List β} (failed : (parse next s).2.1 = some e) :
    ∃ (ps : List (List β)) (behind rest : List β), ps.length = (parse next s).1.length ∧
      (∀ p ∈ ps, ∃ a, next p = .item a []) ∧ s = ps.flatten ++ behind ∧ next behind = .bad e rest := by
  induction length : s.length using Nat.strongRecOn generalizing s with
  | ind n ih =>
    cases front : next s with
    | wait =>
      rw [lawful.parse_of_wait front] at failed
      cases failed
    | bad e' rest =>
      rw [lawful.parse_of_bad front] at failed ⊢
      obtain rfl := Option.some.inj failed
      exact ⟨[], s, rest, rfl, nofun, rfl, front⟩
    | item a rest =>
      have less := lawful.length_lt front
      obtain ⟨p, -, rfl, alone⟩ := lawful.item s a rest front
      rw [lawful.parse_of_item front] at failed ⊢
      obtain ⟨ps, behind, rest', count, each, rfl, bad⟩ := ih rest.length (by omega) failed rfl
      refine ⟨p :: ps, behind, rest', congrArg (· + 1) count, ?_, ?_, bad⟩
      · intro q mem
        rcases List.mem_cons.1 mem with rfl | mem
        · exact ⟨a, alone⟩
        · exact each q mem
      · rw [List.flatten_cons, List.append_assoc]

theorem badBehind_iff (lawful : Lawful next) {s : List β} :
    BadBehind next s ↔ ¬ ((parse next s).2.1 = none ∨ (parse next s).1 = []) := by
  rw [not_or]
  constructor
  · rintro ⟨ps, behind, e, rest, some, each, rfl, bad⟩
    obtain ⟨as, length, parsed⟩ := exists_parse_flatten lawful each behind
    rw [parsed, lawful.parse_of_bad bad, List.append_nil]
    refine ⟨nofun, fun none => some (List.eq_nil_of_length_eq_zero ?_)⟩
    rw [← length, show as = [] from none, List.length_nil]
  · rintro ⟨failed, some⟩
    obtain ⟨e, failed⟩ := Option.ne_none_iff_exists'.1 failed
    obtain ⟨ps, behind, rest, count, each, split, bad⟩ := exists_flatten_of_parse lawful failed
    refine ⟨ps, behind, e, rest, fun none => some (List.eq_nil_of_length_eq_zero ?_), each, split, bad⟩
    rw [← count, none, List.length_nil]

theorem delivers_iff_not_badBehind (lawful : Lawful next) {s : List β} : Delivers next s ↔ ¬ BadBehind next s := by
  rw [delivers_iff lawful, badBehind_iff lawful, not_not]

theorem invariant_iff_not_badBehind (lawful : Lawful next) {s : List β} : Invariant next s ↔ ¬ BadBehind next s := by
  rw [badBehind_iff lawful, not_not]
  exact ⟨clean_of_invariant lawful, fun clean => (delivers_of_clean lawful clean).invariant⟩

end Chunks

end SimplicioFast
