import SimplicioFast.Lib.Fields
import SimplicioFast.Lib.JsonSame
import SimplicioFast.Lib.Outcome
import SimplicioFast.Streaming.Store

/-!
# Files of the streaming block store

The files of a store have seven names in the directory of a generation and in the root.  What the store writes to them is
read back, and the files of a generation are found under its name.
-/

namespace SimplicioFast

namespace Streaming

open Crash FileSystem

variable {fs : FileSystem} {p q root work : List PyStr} {generation name s t : PyStr} {blockBytes : ℤ} {u : Unit}
  {condition : Bool} {b : Bytes} {v : Json} {missing : Raised} {k : PyStr}

theorem check_eq_ok_iff {reasonCode message : PyStr} : check condition reasonCode message = .ok u ↔ condition = true := by
  cases condition with
  | true => exact iff_of_true rfl rfl
  | false => exact iff_of_false nofun nofun

/-! ## Names -/

theorem append_singleton_ne (other : s ≠ t) : p ++ [s] ≠ q ++ [t] := by
  intro same
  have last := congrArg (List.getLastD · []) same
  rw [List.getLastD_concat, List.getLastD_concat] at last
  exact other last

theorem append_singleton_ne_of_ne (other : p ≠ q) : p ++ [s] ≠ q ++ [t] := by
  intro same
  have front := congrArg List.dropLast same
  rw [List.dropLast_concat, List.dropLast_concat] at front
  exact other front

@[simp] theorem temporaryOf_concat (p : List PyStr) (s : PyStr) : temporaryOf (p ++ [s]) = p ++ [s ++ (".tmp" : PyStr)] := by
  rw [temporaryOf, List.dropLast_concat, List.getLastD_concat]

theorem not_isHigh_of_fsEncode (encoded : (fsEncode s).isSome) : ∀ c ∈ s, ¬ c.IsHigh := by
  induction s with
  | nil => exact nofun
  | cons c s ih =>
    intro d mem
    cases c with
    | scalar c =>
      rw [fsEncode, Option.isSome_map] at encoded
      rcases List.mem_cons.1 mem with rfl | mem
      · exact PyChar.not_isHigh_scalar c
      · exact ih encoded d mem
    | surrogate n =>
      rw [fsEncode] at encoded
      split at encoded
      · rename_i escape
        rw [Option.isSome_map] at encoded
        rcases List.mem_cons.1 mem with rfl | mem
        · intro high
          have code : (PyChar.surrogate n).code = 0xD800 + n.val := rfl
          rw [PyChar.IsHigh, code] at high
          omega
        · exact ih encoded d mem
      · cases encoded

theorem unpaired_of_not_isHigh (low : ∀ c ∈ s, ¬ c.IsHigh) : s.Unpaired := by
  induction s with
  | nil => exact .nil
  | cons c s ih =>
    refine PyStr.unpaired_cons (fun d _ both => low c List.mem_cons_self both.1) (ih fun d mem => ?_)
    exact low d (List.mem_cons_of_mem c mem)

/-- The generations that `build` accepts. -/
structure Named (generation name : PyStr) : Prop where
  some : generation ≠ []
  simple : pathName generation = generation
  os : osText generation = .ok name

theorem checkArguments_eq_ok_iff : checkArguments generation blockBytes = .ok name ↔
    Named generation name ∧ 1 ≤ blockBytes ∧ blockBytes ≤ MAX_BLOCK_BYTES := by
  constructor
  · intro h
    obtain ⟨⟨⟩, named, h⟩ := bind_ok.1 h
    obtain ⟨⟨⟩, size, h⟩ := bind_ok.1 h
    obtain ⟨some, simple⟩ := (Bool.and_eq_true_iff).1 (check_eq_ok_iff.1 named)
    obtain ⟨one, max⟩ := (Bool.and_eq_true_iff).1 (check_eq_ok_iff.1 size)
    exact ⟨⟨of_decide_eq_true some, of_decide_eq_true simple, h⟩, of_decide_eq_true one, of_decide_eq_true max⟩
  · rintro ⟨named, one, max⟩
    refine bind_ok.2 ⟨(), check_eq_ok_iff.2 (Bool.and_eq_true_iff.2 ?_), ?_⟩
    · exact ⟨decide_eq_true named.some, decide_eq_true named.simple⟩
    refine bind_ok.2 ⟨(), check_eq_ok_iff.2 (Bool.and_eq_true_iff.2 ?_), named.os⟩
    exact ⟨decide_eq_true one, decide_eq_true max⟩

namespace Named

variable (named : Named generation name)

include named

theorem unpaired : generation.Unpaired := by
  have os := named.os
  unfold osText at os
  split at os
  · cases os
  · rename_i b encoded
    exact unpaired_of_not_isHigh (not_isHigh_of_fsEncode (by rw [encoded]; rfl))

theorem mem_parts : generation ∈ parts generation := by
  have last : (parts generation).getLastD [] = generation := named.simple
  cases none : parts generation with
  | nil =>
    rw [none] at last
    exact absurd last.symm named.some
  | cons part rest =>
    rw [none, List.getLastD_cons] at last
    rw [← last]
    exact List.getLastD_mem_cons

theorem parts_eq : parts generation = [generation] ∧ generation.head? ≠ Option.some (.scalar '/') := by
  obtain ⟨mem, plain⟩ := List.mem_filter.1 named.mem_parts
  have absent := PyStr.notMem_of_mem_splitOn mem
  constructor
  · rw [parts, List.splitOn_eq_singleton absent]
    exact List.filter_cons_of_pos (p := fun name => !isDot name) plain
  · intro head
    exact absent (List.mem_of_head? head)

end Named

/-- The names of files that a reader opens. -/
def Plain (name : PyStr) : Prop :=
  parts name = [name] ∧ name.head? ≠ some (.scalar '/') ∧ osText name = .ok name ∧ isDot name = false ∧ name ≠ ("..")

instance (name : PyStr) : Decidable (Plain name) := by
  unfold Plain
  infer_instance

theorem plain_manifest : Plain "manifest.json" := by decide

theorem plain_segment : Plain "segment-000000.bin" := by decide

theorem fileAt_eq (named : Named generation name) (plain : Plain s) (top : fs.IsDir root)
    (dir : fs.IsDir (child root name)) : fileAt root generation s fs = .ok (child root name ++ [s]) := by
  obtain ⟨one, relative⟩ := named.parts_eq
  obtain ⟨only, relative', os, dot, up⟩ := plain
  have walked : fs.walk root [name, s] = .ok (child root name ++ [s]) := by
    rw [FileSystem.walk, if_neg (not_not.2 top)]
    unfold child at dir ⊢
    by_cases here : isDot name = true
    · rw [if_pos here] at dir ⊢
      rw [if_pos here]
      exact walk_leaf dir dot up
    · rw [if_neg here] at dir ⊢
      rw [if_neg here]
      by_cases above : name = ("..")
      · rw [if_pos above] at dir ⊢
        rw [if_pos above]
        exact walk_leaf dir dot up
      · rw [if_neg above] at dir ⊢
        rw [if_neg above]
        exact walk_leaf dir dot up
  have names : [generation, s].mapM osText = .ok [name, s] := by
    rw [List.mapM_cons, named.os, List.mapM_cons, os]
    rfl
  rw [fileAt, if_neg relative', one, only]
  refine bind_ok.2 ⟨[name, s], names, ?_⟩
  rw [if_neg (by simp [relative, relative'])]
  show (fs.walk root [name, s]).mapError Raised.os = _
  rw [walked]
  rfl

/-! ## JSON -/

theorem readJson_jsonBytes {fields : List (PyStr × Json)} (distinct : (Json.obj fields).DistinctKeys)
    (unpaired : (Json.obj fields).Unpaired) (written : fs.content p = some (jsonBytes (.obj fields))) :
    readJson missing fs p = .ok (Json.obj fields).sortKeys := by
  have newline : ∀ c ∈ ("\n" : PyStr), Json.isSpace c = true ∧ c.code < 128 := by decide
  rw [readJson, content_eq_some_iff.1 written, jsonBytes]
  dsimp only
  rw [Json.decode_encodeAscii_dumps _ _ fun c mem => (newline c mem).2]
  dsimp only
  rw [Json.loads_dumps_obj distinct (.inr unpaired) fun c mem => (newline c mem).1]

theorem unpaired_hexdigest (b : Bytes) : (hexdigest b).Unpaired := PyStr.unpaired_ofChars _

theorem isEqual_str_iff {o : Option Json} : isEqual o (.str s) = true ↔ o = some (.str s) := by
  cases o with
  | none => exact iff_of_false nofun nofun
  | some v =>
    cases v with
    | str t => 
      show decide (t = s) = true ↔ _
      rw [decide_eq_true_iff, Option.some.injEq, Json.str.injEq]
    | _ => exact iff_of_false nofun (by rintro ⟨⟩)

end Streaming

end SimplicioFast
