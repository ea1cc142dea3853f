import SimplicioFast.Lib.JsonSame

/-!
# Values that are read from a text without surrogates

The parser joins the surrogate pairs that escapes spell, so what it reads of a text without surrogates has no pair
(`unpaired_of_loads`).  The proof follows the parser, which leaves an end of the text behind every part.
-/

namespace SimplicioFast

namespace Json

variable {s t r : PyStr} {v : Json} {n : ℕ}

/-! ## The parser leaves an end of the text -/

theorem skipSpace_suffix (s : PyStr) : skipSpace s <:+ s := by
  induction s with
  | nil => exact List.suffix_refl _
  | cons c s ih =>
    rw [skipSpace]
    split
    · exact ih.trans (List.suffix_cons c s)
    · exact List.suffix_refl _

theorem spanDigits_suffix (s : PyStr) : (spanDigits s).2 <:+ s := by
  fun_induction spanDigits s with
  | case1 c s digit ds r same ih =>
    rw [same] at ih
    exact ih.trans (List.suffix_cons _ s)
  | case2 => exact List.suffix_refl _
  | case3 => exact List.suffix_refl _

theorem parseFraction_suffix (s : PyStr) : (parseFraction s).2 <:+ s := by
  unfold parseFraction
  split
  · rename_i s
    have digits := spanDigits_suffix s
    split
    · exact List.suffix_refl _
    · rename_i ds r same
      rw [same] at digits
      exact digits.trans (List.suffix_cons _ s)
  · exact List.suffix_refl _

theorem parseExponent_suffix (s : PyStr) : (parseExponent s).2 <:+ s := by
  fun_cases parseExponent s with
  | case1 => exact List.suffix_refl _
  | case2 c t letter sign u signed ds r some digits =>
    have behind : u <:+ t := by
      split at signed
      · cases signed
        exact List.suffix_cons _ _
      · cases signed
        exact List.suffix_cons _ _
      · cases signed
        exact List.suffix_refl _
    have rest := spanDigits_suffix u
    rw [digits] at rest
    exact (rest.trans behind).trans (List.suffix_cons _ t)
  | case3 => exact List.suffix_refl _
  | case4 => exact List.suffix_refl _

theorem suffix_of_whole {ds : List Char} (whole : (match s with
    | .scalar '0' :: r => (['0'], r)
    | _ => spanDigits s) = (ds, t)) : t <:+ s := by
  split at whole
  · cases whole
    exact List.suffix_cons _ _
  · have digits := spanDigits_suffix s
    rwa [whole] at digits

theorem suffix_of_parseUnsigned {neg : Bool} : parseUnsigned neg s = some (v, r) → r <:+ s := by
  fun_cases parseUnsigned neg s with
  | case1 => exact nofun
  | case2 ds t whole some t' t'' n fraction exponent =>
    rintro ⟨⟩
    have first := parseFraction_suffix t
    have second := parseExponent_suffix t'
    rw [fraction] at first
    rw [exponent] at second
    exact (second.trans first).trans (suffix_of_whole whole)
  | case3 ds t whole some f t' fraction e t'' exponent =>
    rintro ⟨⟩
    have first := parseFraction_suffix t
    have second := parseExponent_suffix t'
    rw [fraction] at first
    rw [exponent] at second
    exact (second.trans first).trans (suffix_of_whole whole)

theorem suffix_of_parseNumber (h : parseNumber s = some (v, r)) : r <:+ s := by
  unfold parseNumber at h
  split at h
  · exact (suffix_of_parseUnsigned h).trans (List.suffix_cons _ _)
  · exact suffix_of_parseUnsigned h

theorem suffix_of_parseLiteral (h : parseLiteral s = some (v, r)) : r <:+ s := by
  obtain ⟨l, -, h⟩ := List.exists_of_findSome?_eq_some h
  obtain ⟨rest, found, e⟩ := Option.map_eq_some_iff.1 h
  cases e
  obtain rfl := List.isPrefixOf?_eq_some_iff_append_eq.1 found
  exact List.suffix_append _ _

theorem suffix_of_parseHex4 (h : parseHex4 s = some (n, r)) : r <:+ s := by
  unfold parseHex4 at h
  split at h
  · obtain ⟨a', -, h⟩ := Option.bind_eq_some_iff.1 h
    obtain ⟨b', -, h⟩ := Option.bind_eq_some_iff.1 h
    obtain ⟨c', -, h⟩ := Option.bind_eq_some_iff.1 h
    obtain ⟨d', -, h⟩ := Option.bind_eq_some_iff.1 h
    cases h
    exact List.suffix_append [_, _, _, _] _
  · cases h

theorem joinSurrogates_suffix (n : ℕ) (s : PyStr) : (joinSurrogates n s).2 <:+ s := by
  unfold joinSurrogates
  split
  · rename_i t
    split
    · rename_i m r read
      split
      · exact (suffix_of_parseHex4 read).trans (List.suffix_append [_, _] t)
      · exact List.suffix_refl _
    · exact List.suffix_refl _
  · exact List.suffix_refl _

theorem suffix_of_parseStrBody (h : parseStrBody n s = some (t, r)) : r <:+ s := by
  induction n generalizing s t with
  | zero => cases h
  | succ n ih =>
    cases s with
    | nil => cases h
    | cons c s =>
      unfold parseStrBody at h
      split at h
      · cases h
        exact List.suffix_cons c _
      · split at h
        · split at h
          · rename_i t
            obtain ⟨⟨code, u⟩, hex, h⟩ := Option.bind_eq_some_iff.1 h
            obtain ⟨⟨cs, w⟩, body, h⟩ := Option.bind_eq_some_iff.1 h
            cases h
            exact (((ih body).trans (joinSurrogates_suffix code u)).trans (suffix_of_parseHex4 hex)).trans
              (List.suffix_append [_, _] t)
          · rename_i e t other
            obtain ⟨e', -, h⟩ := Option.bind_eq_some_iff.1 h
            obtain ⟨⟨cs, w⟩, body, h⟩ := Option.bind_eq_some_iff.1 h
            cases h
            exact (ih body).trans (List.suffix_append [_, _] t)
          · cases h
        · split at h
          · cases h
          · obtain ⟨⟨cs, w⟩, body, h⟩ := Option.bind_eq_some_iff.1 h
            cases h
            exact (ih body).trans (List.suffix_cons c s)

/-! ## No pairs -/

/-- No code point of the text is a surrogate. -/
def Scalars (s : PyStr) : Prop := ∀ c ∈ s, ∃ d, c = .scalar d

theorem Scalars.suffix (scalars : Scalars s) (end' : r <:+ s) : Scalars r := fun c mem => scalars c (end'.subset mem)

theorem code_charOfCode (small : n < 0x110000) : (charOfCode n).code = n := by
  unfold charOfCode
  split
  · show 0xD800 + (n - 0xD800) = n
    omega
  · rename_i other
    have valid : n.isValidChar := by
      unfold Nat.isValidChar
      omega
    show (Char.ofNat n).toNat = n
    rw [Char.ofNat, dif_pos valid]
    rfl

/-- A text that begins with the escape of a low surrogate. -/
def BeginsLow (s : PyStr) : Prop := ∃ t m r, s = .scalar '\\' :: .scalar 'u' :: t ∧ parseHex4 t = some (m, r) ∧
  0xDC00 ≤ m ∧ m < 0xE000

theorem lt_of_hexValue? {c : Char} {a : ℕ} (h : Bytes.hexValue? c = some a) : a < 16 := by
  unfold Bytes.hexValue? at h
  dsimp only at h
  split_ifs at h
  all_goals
    cases h
    omega

theorem lt_of_parseHex4 (h : parseHex4 s = some (n, r)) : n < 0x10000 := by
  unfold parseHex4 at h
  split at h
  · obtain ⟨a, ha, h⟩ := Option.bind_eq_some_iff.1 h
    obtain ⟨b, hb, h⟩ := Option.bind_eq_some_iff.1 h
    obtain ⟨c, hc, h⟩ := Option.bind_eq_some_iff.1 h
    obtain ⟨d, hd, h⟩ := Option.bind_eq_some_iff.1 h
    cases h
    have first := lt_of_hexValue? ha
    have second := lt_of_hexValue? hb
    have third := lt_of_hexValue? hc
    have fourth := lt_of_hexValue? hd
    omega
  · cases h

theorem joinSurrogates_high (small : n < 0x10000) (high : (joinSurrogates n s).1.IsHigh) :
    (joinSurrogates n s).2 = s ∧ ¬ BeginsLow s := by
  have code := code_charOfCode (n := n) (by omega)
  unfold joinSurrogates at high ⊢
  split at high
  · rename_i t
    split at high
    · rename_i m r read
      split_ifs at high with pair
      · have joined := code_charOfCode (n := 0x10000 + (n - 0xD800) * 1024 + (m - 0xDC00)) (by omega)
        obtain ⟨low, up⟩ := high
        dsimp only at low up
        omega
      · rw [if_neg pair]
        refine ⟨rfl, ?_⟩
        rintro ⟨t', m', r', same, read', low⟩
        cases same
        obtain ⟨rfl, rfl⟩ := Prod.mk.inj (Option.some.inj (read.symm.trans read'))
        obtain ⟨above, below⟩ := high
        rw [code] at above below
        exact pair ⟨above, below, low⟩
    · rename_i none
      refine ⟨rfl, ?_⟩
      rintro ⟨t', m', r', same, read', low⟩
      cases same
      rw [none] at read'
      cases read'
  · rename_i other
    refine ⟨rfl, ?_⟩
    rintro ⟨t', m', r', same, -⟩
    exact other t' same

theorem joinSurrogates_low (small : n < 0x10000) (low : (joinSurrogates n s).1.IsLow) : 0xDC00 ≤ n ∧ n < 0xE000 := by
  have code := code_charOfCode (n := n) (by omega)
  unfold joinSurrogates at low
  split at low
  · split at low
    · rename_i m r read
      split_ifs at low with pair
      · have joined := code_charOfCode (n := 0x10000 + (n - 0xD800) * 1024 + (m - 0xDC00)) (by omega)
        obtain ⟨above, below⟩ := low
        dsimp only at above below
        omega
      · rwa [PyChar.IsLow, code] at low
    · rwa [PyChar.IsLow, code] at low
  · rwa [PyChar.IsLow, code] at low

theorem beginsLow_of_isLow {cs : PyStr} (scalars : Scalars s) (h : parseStrBody n s = some (cs, r))
    (low : ∃ c ∈ cs.head?, c.IsLow) : BeginsLow s := by
  obtain ⟨d, head, low⟩ := low
  cases n with
  | zero => cases h
  | succ n =>
    cases s with
    | nil => cases h
    | cons c s =>
      unfold parseStrBody at h
      split at h
      · cases h
        cases head
      · split at h
        · rename_i escape
          subst escape
          split at h
          · rename_i t
            obtain ⟨⟨code, u⟩, hex, h⟩ := Option.bind_eq_some_iff.1 h
            obtain ⟨⟨ds, w⟩, body, h⟩ := Option.bind_eq_some_iff.1 h
            cases h
            cases head
            exact ⟨t, code, u, rfl, hex, joinSurrogates_low (lt_of_parseHex4 hex) low⟩
          · obtain ⟨e', -, h⟩ := Option.bind_eq_some_iff.1 h
            obtain ⟨⟨ds, w⟩, body, h⟩ := Option.bind_eq_some_iff.1 h
            cases h
            cases head
            exact absurd low (PyChar.not_isLow_scalar _)
          · cases h
        · split at h
          · cases h
          · obtain ⟨⟨ds, w⟩, body, h⟩ := Option.bind_eq_some_iff.1 h
            cases h
            cases head
            obtain ⟨e, rfl⟩ := scalars _ List.mem_cons_self
            exact absurd low (PyChar.not_isLow_scalar _)

theorem unpaired_of_parseStrBody {cs : PyStr} (scalars : Scalars s) (h : parseStrBody n s = some (cs, r)) :
    cs.Unpaired := by
  induction n generalizing s cs with
  | zero => cases h
  | succ n ih =>
    cases s with
    | nil => cases h
    | cons c s =>
      unfold parseStrBody at h
      split at h
      · cases h
        exact .nil
      · split at h
        · split at h
          · rename_i t
            obtain ⟨⟨code, u⟩, hex, h⟩ := Option.bind_eq_some_iff.1 h
            obtain ⟨⟨ds, w⟩, body, h⟩ := Option.bind_eq_some_iff.1 h
            cases h
            have rest : Scalars u := scalars.suffix ((suffix_of_parseHex4 hex).trans (List.suffix_append [_, _] t))
            have rest' := rest.suffix (joinSurrogates_suffix code u)
            refine PyStr.unpaired_cons (fun d head both => ?_) (ih rest' body)
            obtain ⟨same, apart⟩ := joinSurrogates_high (lt_of_parseHex4 hex) both.1
            replace body : parseStrBody n (joinSurrogates code u).2 = some (ds, r) := body
            rw [same] at body
            exact apart (beginsLow_of_isLow rest body ⟨d, head, both.2⟩)
          · rename_i e t other
            obtain ⟨e', -, h⟩ := Option.bind_eq_some_iff.1 h
            obtain ⟨⟨ds, w⟩, body, h⟩ := Option.bind_eq_some_iff.1 h
            cases h
            refine PyStr.unpaired_cons (fun d _ both => PyChar.not_isHigh_scalar _ both.1) (ih ?_ body)
            exact scalars.suffix (List.suffix_append [_, _] t)
          · cases h
        · split at h
          · cases h
          · obtain ⟨⟨ds, w⟩, body, h⟩ := Option.bind_eq_some_iff.1 h
            cases h
            obtain ⟨e, rfl⟩ := scalars c List.mem_cons_self
            refine PyStr.unpaired_cons (fun d _ both => PyChar.not_isHigh_scalar _ both.1) (ih ?_ body)
            exact scalars.suffix (List.suffix_cons _ s)

theorem unpaired_dictFields {fs : List (PyStr × Json)} (h : FieldsUnpaired fs) : Unpaired (.obj (dictFields fs)) := by
  have each := fieldsUnpaired_iff.1 h
  refine fieldsUnpaired_iff.2 fun f mem => fieldUnpaired_iff.2 ⟨?_, ?_⟩
  · obtain ⟨g, mem, same⟩ := List.mem_map.1 (fst_mem_of_mem_dictFields f mem)
    exact same ▸ (fieldUnpaired_iff.1 (each g mem)).1
  · exact forall_mem_dictFields (P := Unpaired) (fun g mem => (fieldUnpaired_iff.1 (each g mem)).2) f mem

theorem unpaired_of_parseLiteral (h : parseLiteral s = some (v, r)) : v.Unpaired := by
  obtain ⟨l, mem, h⟩ := List.exists_of_findSome?_eq_some h
  obtain ⟨_, -, e⟩ := Option.map_eq_some_iff.1 h
  cases e
  simp only [literals, List.mem_cons, List.not_mem_nil, or_false] at mem
  rcases mem with rfl | rfl | rfl | rfl | rfl | rfl <;> trivial

theorem unpaired_of_parseUnsigned {neg : Bool} : parseUnsigned neg s = some (v, r) → v.Unpaired := by
  fun_cases parseUnsigned neg s with
  | case1 => exact nofun
  | case2 =>
    rintro ⟨⟩
    trivial
  | case3 =>
    rintro ⟨⟩
    trivial

theorem unpaired_of_parseNumber (h : parseNumber s = some (v, r)) : v.Unpaired := by
  unfold parseNumber at h
  split at h
  · exact unpaired_of_parseUnsigned h
  · exact unpaired_of_parseUnsigned h

theorem unpaired_of_parse (n : ℕ) :
    (∀ s v r, Scalars s → parseValue n s = some (v, r) → v.Unpaired ∧ r <:+ s) ∧
    (∀ s vs r, Scalars s → parseItems n s = some (vs, r) → ItemsUnpaired vs ∧ r <:+ s) ∧
    ∀ s fs r, Scalars s → parseFields n s = some (fs, r) → FieldsUnpaired fs ∧ r <:+ s := by
  induction n with
  | zero => exact ⟨fun _ _ _ _ h => (by cases h), fun _ _ _ _ h => (by cases h), fun _ _ _ _ h => (by cases h)⟩
  | succ n ih =>
    obtain ⟨value, items, fields⟩ := ih
    refine ⟨fun s v r scalars h => ?_, fun s vs r scalars h => ?_, fun s fs r scalars h => ?_⟩
    · cases s with
      | nil => cases h
      | cons c s =>
        have tail := List.suffix_cons c s
        have start := (skipSpace_suffix s).trans tail
        rw [parseValue] at h
        split_ifs at h
        · obtain ⟨⟨t, u⟩, read, e⟩ := Option.map_eq_some_iff.1 h
          cases e
          exact ⟨unpaired_of_parseStrBody (scalars.suffix tail) read, (suffix_of_parseStrBody read).trans tail⟩
        · cases h
          exact ⟨trivial, (List.tail_suffix _).trans start⟩
        · obtain ⟨⟨vs, u⟩, read, e⟩ := Option.map_eq_some_iff.1 h
          cases e
          obtain ⟨unpaired, behind⟩ := items _ _ _ (scalars.suffix start) read
          exact ⟨unpaired, behind.trans start⟩
        · cases h
          exact ⟨trivial, (List.tail_suffix _).trans start⟩
        · obtain ⟨⟨fs, u⟩, read, e⟩ := Option.map_eq_some_iff.1 h
          cases e
          obtain ⟨unpaired, behind⟩ := fields _ _ _ (scalars.suffix start) read
          exact ⟨unpaired_dictFields unpaired, behind.trans start⟩
        · rcases Option.or_eq_some_iff.1 h with h | ⟨-, h⟩
          · exact ⟨unpaired_of_parseLiteral h, suffix_of_parseLiteral h⟩
          · exact ⟨unpaired_of_parseNumber h, suffix_of_parseNumber h⟩
    · rw [parseItems] at h
      obtain ⟨⟨v, t⟩, first, h⟩ := Option.bind_eq_some_iff.1 h
      obtain ⟨unpaired, behind⟩ := value _ _ _ scalars first
      have behind' := (skipSpace_suffix t).trans behind
      dsimp only at h
      split at h
      · rename_i u closed
        rw [closed] at behind'
        cases h
        exact ⟨⟨unpaired, trivial⟩, (List.suffix_cons _ r).trans behind'⟩
      · rename_i u comma
        rw [comma] at behind'
        obtain ⟨⟨ws, w⟩, more, h⟩ := Option.bind_eq_some_iff.1 h
        cases h
        have rest := ((skipSpace_suffix u).trans (List.suffix_cons _ u)).trans behind'
        obtain ⟨unpaired', last⟩ := items _ _ _ (scalars.suffix rest) more
        exact ⟨⟨unpaired, unpaired'⟩, last.trans rest⟩
      · cases h
    · unfold parseFields at h
      split at h
      · rename_i s
        obtain ⟨⟨k, t⟩, key, h⟩ := Option.bind_eq_some_iff.1 h
        have open' := List.suffix_cons (PyChar.scalar '"') s
        have unpairedKey := unpaired_of_parseStrBody (scalars.suffix open') key
        have behind := (skipSpace_suffix t).trans ((suffix_of_parseStrBody key).trans open')
        dsimp only at h
        split at h
        · rename_i u colon
          rw [colon] at behind
          obtain ⟨⟨v, w⟩, first, h⟩ := Option.bind_eq_some_iff.1 h
          have start := ((skipSpace_suffix u).trans (List.suffix_cons _ u)).trans behind
          obtain ⟨unpaired, behind'⟩ := value _ _ _ (scalars.suffix start) first
          have behind'' := (skipSpace_suffix w).trans (behind'.trans start)
          dsimp only at h
          split at h
          · rename_i x closed
            rw [closed] at behind''
            cases h
            exact ⟨⟨⟨unpairedKey, unpaired⟩, trivial⟩, (List.suffix_cons _ r).trans behind''⟩
          · rename_i x comma
            rw [comma] at behind''
            obtain ⟨⟨gs, y⟩, more, h⟩ := Option.bind_eq_some_iff.1 h
            cases h
            have rest := ((skipSpace_suffix x).trans (List.suffix_cons _ x)).trans behind''
            obtain ⟨unpaired', last⟩ := fields _ _ _ (scalars.suffix rest) more
            exact ⟨⟨⟨unpairedKey, unpaired⟩, unpaired'⟩, last.trans rest⟩
          · cases h
        · cases h
      · cases h

theorem unpaired_of_loads (scalars : Scalars s) (h : loads s = some v) : v.Unpaired := by
  unfold loads at h
  split at h
  · rename_i w r read
    split_ifs at h
    cases h
    exact ((unpaired_of_parse _).1 _ _ _ (scalars.suffix (skipSpace_suffix s)) read).1
  · cases h

theorem scalars_of_decode {b : Bytes} (h : PyStr.decode b = some s) : Scalars s := by
  obtain ⟨l, -, rfl⟩ := Option.map_eq_some_iff.1 h
  intro c mem
  obtain ⟨d, -, rfl⟩ := List.mem_map.1 mem
  exact ⟨d, rfl⟩

end Json

end SimplicioFast
