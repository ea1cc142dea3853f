import SimplicioFast.Lib.Fields
import SimplicioFast.Prism.Arena

/-!
# Sealed rows

`seal_receipt` appends to a row the hash of the row before it and the hash of what it has so far; `verify_chain` checks
these hashes along a chain of rows.  A sealed row verifies behind the row it was sealed for (`verifyRow_of_seal`).
-/

namespace SimplicioFast

namespace Prism

open PyStr

def GENESIS : PyStr := List.replicate 64 (.scalar '0')

/-- `|prev_event_hash=`. -/
def PREVIOUS : PyStr := .scalar '|' :: "prev_event_hash="

/-- `|event_hash=`. -/
def EVENT : PyStr := .scalar '|' :: "event_hash="

def sealReceipt (row previous : PyStr) : Except ArenaRaised PyStr :=
  if .scalar '\n' ∈ row ∨ .scalar '\r' ∈ row then .error (.hbpError "HBP_MALFORMED_ROW")
  else
    let body := row ++ (PREVIOUS ++ previous)
    match body.encode with
    | none => .error .unicodeEncodeError
    | some encoded => .ok (body ++ (EVENT ++ digestOf encoded))

/-- A turn of the loop of `verify_chain`: the hash of a row that verifies behind the row with the given hash. -/
def verifyRow (previous row : PyStr) : Except ArenaRaised PyStr :=
  match rsplit? EVENT row with
  | none => .error (.hbpError "HBP_PARTIAL_APPEND")
  | some (body, claimed) =>
    match rsplit? PREVIOUS body with
    | none => .error (.hbpError "HBP_PARTIAL_APPEND")
    | some (_, linked) =>
      if linked ≠ previous ∨ claimed.length ≠ 64 then .error (.hbpError "HBP_INVALID_CHAIN")
      else match body.encode with
        | none => .error .unicodeEncodeError
        | some encoded => if digestOf encoded ≠ claimed then .error (.hbpError "HBP_INVALID_CHAIN") else .ok claimed

def verifyChain (rows : List PyStr) : Except ArenaRaised PyStr := rows.foldlM verifyRow GENESIS

variable {row previous sealed : PyStr} {b : Bytes}

/-! ## Digests as texts -/

theorem hexDigit_cases : ∀ n < 16, Bytes.hexDigit n ∈ "0123456789abcdef".toList := by decide

theorem mem_digestOf {c : PyChar} (h : c ∈ digestOf b) : ∃ d ∈ "0123456789abcdef".toList, c = .scalar d := by
  obtain ⟨d, mem, rfl⟩ := List.mem_map.1 h
  exact ⟨d, Sha256.forall_mem_hexdigest hexDigit_cases b d mem, rfl⟩

theorem notMem_digestOf {c : Char} (other : c ∉ "0123456789abcdef".toList) : .scalar c ∉ digestOf b := by
  intro mem
  obtain ⟨d, inside, same⟩ := mem_digestOf mem
  cases same
  exact other inside

@[simp] theorem length_digestOf (b : Bytes) : (digestOf b).length = 64 := by
  unfold digestOf PyStr.ofChars
  rw [List.length_map, Sha256.length_hexdigest]

/-! ## A sealed row -/

theorem sealReceipt_eq_ok (h : sealReceipt row previous = .ok sealed) :
    ∃ encoded, (row ++ (PREVIOUS ++ previous)).encode = some encoded ∧
      sealed = row ++ (PREVIOUS ++ previous) ++ (EVENT ++ digestOf encoded) := by
  unfold sealReceipt at h
  split_ifs at h
  dsimp only at h
  split at h
  · cases h
  · rename_i encoded same
    exact ⟨encoded, same, (Except.ok.inj h).symm⟩

theorem rsplit_event {body hash : PyStr} (plain : .scalar '|' ∉ hash) :
    rsplit? EVENT (body ++ (EVENT ++ hash)) = some (body, hash) :=
  rsplit?_append (by decide) plain

theorem verifyRow_of_seal (h : sealReceipt row previous = .ok sealed) (plain : .scalar '|' ∉ previous) :
    ∃ encoded, rsplit? EVENT sealed = some (row ++ (PREVIOUS ++ previous), digestOf encoded) ∧
      verifyRow previous sealed = .ok (digestOf encoded) := by
  obtain ⟨encoded, same, rfl⟩ := sealReceipt_eq_ok h
  have event : rsplit? EVENT (row ++ (PREVIOUS ++ previous) ++ (EVENT ++ digestOf encoded)) =
      some (row ++ (PREVIOUS ++ previous), digestOf encoded) := rsplit_event (notMem_digestOf (by decide))
  have linked : rsplit? PREVIOUS (row ++ (PREVIOUS ++ previous)) = some (row, previous) :=
    rsplit?_append (by decide) plain
  refine ⟨encoded, event, ?_⟩
  unfold verifyRow
  rw [event]
  dsimp only
  rw [linked]
  dsimp only
  rw [if_neg (by simp), same]
  exact if_neg (not_not.2 rfl)

def isPlain : PyChar → Bool
  | .scalar c => c ≠ '\n' && c ≠ '\r'
  | .surrogate _ => false

theorem isPlain_digestOf {c : PyChar} (h : c ∈ digestOf b) : isPlain c = true := by
  obtain ⟨d, mem, rfl⟩ := mem_digestOf h
  have all : ("0123456789abcdef".toList.all fun d => isPlain (.scalar d)) = true := by decide
  exact List.all_eq_true.1 all d mem

theorem exists_seal_iff (plain : ∀ c ∈ previous, isPlain c = true) :
    (∃ sealed, sealReceipt row previous = .ok sealed) ↔ ∀ c ∈ row, isPlain c = true := by
  have words : ∀ n, PyChar.surrogate n ∉ PREVIOUS :=
    fun n => Json.surrogate_notMem_ofChars n "|prev_event_hash=".toList
  unfold sealReceipt
  by_cases broken : .scalar '\n' ∈ row ∨ .scalar '\r' ∈ row
  · rw [if_pos broken]
    refine iff_of_false nofun fun clean => ?_
    rcases broken with newline | return_
    · exact absurd (clean _ newline) (by decide)
    · exact absurd (clean _ return_) (by decide)
  · rw [if_neg broken]
    rw [not_or] at broken
    dsimp only
    have encodes := PyStr.encode_isSome_iff (row ++ (PREVIOUS ++ previous))
    cases encoded : (row ++ (PREVIOUS ++ previous)).encode with
    | none =>
      rw [encoded] at encodes
      refine iff_of_false nofun fun clean => Bool.noConfusion (encodes.2 fun n mem => ?_)
      rcases List.mem_append.1 mem with mem | mem
      · cases clean _ mem
      · rcases List.mem_append.1 mem with mem | mem
        · exact words n mem
        · cases plain _ mem
    | some bytes =>
      rw [encoded] at encodes
      refine iff_of_true ⟨_, rfl⟩ fun c mem => ?_
      cases c with
      | surrogate n => exact absurd (List.mem_append_left _ mem) (encodes.1 rfl n)
      | scalar d =>
        have newline : d ≠ '\n' := by
          rintro rfl
          exact broken.1 mem
        have return_ : d ≠ '\r' := by
          rintro rfl
          exact broken.2 mem
        simp [isPlain, newline, return_]

/-! ## Reading a row -/

def metadataFields (row : PyStr) : Except ArenaRaised (Dict PyStr PyStr) := do
  let _ ← verifyChain [row]
  return parseFields (((rsplit? EVENT row).map Prod.fst).getD row)

theorem metadataFields_of_seal {fields : List (PyStr × PyStr)} (some_ : fields ≠ [])
    (plain : ∀ f ∈ fields, IsField f) (h : sealReceipt (joinFields fields) GENESIS = .ok sealed) :
    metadataFields sealed =
      .ok ((fields ++ [(("prev_event_hash" : PyStr), GENESIS)]).foldl (fun d f => d.set f.1 f.2) .empty) := by
  have genesis : .scalar '|' ∉ GENESIS := by decide
  obtain ⟨encoded, parts, verified⟩ := verifyRow_of_seal h genesis
  have chain : verifyChain [sealed] = .ok (digestOf encoded) := by
    show verifyRow GENESIS sealed >>= pure = _
    rw [verified]
    rfl
  have body : joinFields fields ++ (PREVIOUS ++ GENESIS) =
      joinFields (fields ++ [(("prev_event_hash" : PyStr), GENESIS)]) := by
    rw [joinFields_append some_]
    rfl
  unfold metadataFields
  rw [chain, parts, body]
  show Except.ok (parseFields (joinFields _)) = _
  rw [parseFields_joinFields (by simp)]
  intro f mem
  rcases List.mem_append.1 mem with mem | mem
  · exact plain f mem
  · rw [List.mem_singleton] at mem
    subst mem
    exact ⟨by decide, genesis, by decide⟩

theorem strip_of_seal {c : PyChar} {rest : PyStr} (start : row = c :: rest) (visible : isSpace c = false)
    (h : sealReceipt row previous = .ok sealed) : PyStr.strip (sealed ++ [.scalar '\n']) = sealed := by
  obtain ⟨encoded, -, rfl⟩ := sealReceipt_eq_ok h
  have long := length_digestOf encoded
  obtain ⟨front, d, last⟩ : ∃ front d, digestOf encoded = front ++ [d] := by
    rcases List.eq_nil_or_concat (digestOf encoded) with empty | ⟨front, d, last⟩
    · rw [empty] at long
      cases long
    · exact ⟨front, d, last.trans (List.concat_eq_append ..)⟩
  have digit : isSpace d = false := by
    have mem : d ∈ digestOf encoded := by
      rw [last]
      exact List.mem_append_right _ List.mem_cons_self
    obtain ⟨x, inside, rfl⟩ := mem_digestOf mem
    have all : ("0123456789abcdef".toList.all fun x => !isSpace (.scalar x)) = true := by decide
    exact Bool.not_eq_eq_eq_not.mp (List.all_eq_true.1 all x inside)
  subst start
  unfold PyStr.strip stripIf
  rw [last]
  have newline : isSpace (.scalar '\n') = true := by decide
  simp [visible, digit, newline, List.reverse_append]

end Prism

end SimplicioFast
