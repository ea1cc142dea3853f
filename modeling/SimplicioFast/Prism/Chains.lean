import SimplicioFast.Prism.Receipt
import Mathlib.Data.List.Induction

/-!
# Chains of sealed rows

`verify_chain` accepts the chains of rows that are sealed one behind the other.  `seal_receipt`
refuses the row of which a line ends inside, and `verify_chain` does not look for one, so it accepts
chains that nobody can seal: it accepts exactly those of the seal without this check
(`verifies_iff`).

The row of which the body and the row before it are known is the only one with its hash, as long as
the digests of the bodies that occur differ: two chains that share a row agree up to it
(`eq_of_shared`).
-/

namespace SimplicioFast

namespace Prism

open PyStr

variable {previous previous' h h' row body x : PyStr}
    {rows rows' bodies bodies' pre pre' post post' : List PyStr}
  {sealer : PyStr → PyStr → Except ArenaRaised PyStr}

/-! ## Chains -/

/-- `seal_receipt` without the check of the characters of the row. -/
def sealUnchecked (row previous : PyStr) : Except ArenaRaised PyStr :=
  let body := row ++ (PREVIOUS ++ previous)
  match body.encode with
  | none => .error .unicodeEncodeError
  | some encoded => .ok (body ++ (EVENT ++ digestOf encoded))

/-- The body of a row, of which its hash is the digest. -/
def bodyOf (row : PyStr) : PyStr := ((rsplit? EVENT row).map Prod.fst).getD row

def hashOf (row : PyStr) : PyStr := ((rsplit? EVENT row).map Prod.snd).getD []

/-- The fold of a seal over some bodies, from the hash of the row before them. -/
def chainOf (sealer : PyStr → PyStr → Except ArenaRaised PyStr) : PyStr → List PyStr →
    Except ArenaRaised (List PyStr)
  | _, [] => .ok []
  | previous, body :: bodies => do
    let sealed ← sealer body previous
    let rows ← chainOf sealer (hashOf sealed) bodies
    return sealed :: rows

def Verifies (rows : List PyStr) : Prop := ∃ h, verifyChain rows = .ok h

/-- The rows are sealed one behind the other, from the genesis. -/
def IsSealed (rows : List PyStr) : Prop := ∃ bodies, chainOf sealReceipt GENESIS bodies = .ok rows

def Broken (row : PyStr) : Prop := .scalar '\n' ∈ row ∨ .scalar '\r' ∈ row

instance (row : PyStr) : Decidable (Broken row) := by
  unfold Broken
  infer_instance

theorem sealReceipt_eq (row previous : PyStr) : sealReceipt row previous =
    if Broken row then .error (.hbpError "HBP_MALFORMED_ROW") else sealUnchecked row previous := rfl

/-! ## One row -/

/-- The row behind the one with the given hash, of a body, with its digest. -/
def Link (previous body row h : PyStr) : Prop :=
  row = body ++ (PREVIOUS ++ previous) ++ (EVENT ++ h) ∧
    ∃ encoded, (body ++ (PREVIOUS ++ previous)).encode = some encoded ∧ h = digestOf encoded

theorem bar_notMem_digestOf (b : Bytes) : .scalar '|' ∉ digestOf b := notMem_digestOf (by decide)

theorem bar_notMem_genesis : .scalar '|' ∉ GENESIS := by decide

theorem Link.plain (link : Link previous body row h) : .scalar '|' ∉ h := by
  obtain ⟨-, encoded, -, rfl⟩ := link
  exact bar_notMem_digestOf encoded

theorem Link.rsplit (link : Link previous body row h) : rsplit? EVENT row = some
    (body ++ (PREVIOUS ++ previous), h) := by
  have plain := link.plain
  obtain ⟨rfl, -⟩ := link
  exact rsplit_event plain

theorem Link.bodyOf_eq (link : Link previous body row h) :
    bodyOf row = body ++ (PREVIOUS ++ previous) := by
  rw [bodyOf, link.rsplit]
  rfl

theorem Link.hashOf_eq (link : Link previous body row h) : hashOf row = h := by
  rw [hashOf, link.rsplit]
  rfl

theorem rsplit_previous (plain : .scalar '|' ∉ previous) :
    rsplit? PREVIOUS (body ++ (PREVIOUS ++ previous)) = some (body, previous) :=
  rsplit?_append (by decide) plain

theorem verifyRow_eq_ok_iff (plain : .scalar '|' ∉ previous) :
    verifyRow previous row = .ok h ↔ ∃ body, Link previous body row h := by
  constructor
  · intro verified
    unfold verifyRow at verified
    split at verified
    · cases verified
    · next whole claimed event =>
      split at verified
      · cases verified
      · next body linked parts =>
        split at verified
        · cases verified
        · next fits =>
          obtain ⟨same, -⟩ := not_or.1 fits
          split at verified
          · cases verified
          · next encoded encodes =>
            split at verified
            · cases verified
            · next digest =>
              cases verified
              obtain rfl := not_not.1 same
              rw [eq_of_rsplit? parts] at encodes event
              exact ⟨body, eq_of_rsplit? event, encoded, encodes, (not_not.1 digest).symm⟩
  · rintro ⟨body, link⟩
    have event := link.rsplit
    obtain ⟨-, encoded, encodes, rfl⟩ := link
    unfold verifyRow
    rw [event]
    dsimp only
    rw [rsplit_previous plain]
    dsimp only
    rw [if_neg (by simp), encodes]
    exact if_neg (not_not.2 rfl)

theorem sealUnchecked_eq_ok_iff : sealUnchecked body previous = .ok row ↔
    ∃ h, Link previous body row h := by
  unfold sealUnchecked
  dsimp only
  constructor
  · intro sealed
    split at sealed
    · cases sealed
    · next encoded encodes =>
      cases sealed
      exact ⟨_, rfl, encoded, encodes, rfl⟩
  · rintro ⟨h, rfl, encoded, encodes, rfl⟩
    rw [encodes]

theorem sealUnchecked_spec : sealUnchecked body previous = .ok row ↔
    True ∧ ∃ h, Link previous body row h := by
  rw [sealUnchecked_eq_ok_iff, true_and]

theorem sealReceipt_eq_ok_iff : sealReceipt body previous = .ok row ↔
    ¬ Broken body ∧ ∃ h, Link previous body row h := by
  rw [sealReceipt_eq, ← sealUnchecked_eq_ok_iff]
  by_cases broken : Broken body
  · rw [if_pos broken]
    exact iff_of_false nofun fun h => h.1 broken
  · rw [if_neg broken]
    exact (and_iff_right broken).symm

/-! ## All rows -/

/-- The bodies of rows that are linked one behind the other, with the hash of the last row. -/
inductive Links : PyStr → List PyStr → List PyStr → PyStr → Prop
  | nil {previous : PyStr} : Links previous [] [] previous
  | cons {previous body row h last : PyStr} {bodies rows : List PyStr}
      (link : Link previous body row h)
      (links : Links h bodies rows last) : Links previous (body :: bodies) (row :: rows) last

theorem foldlM_verifyRow_iff (plain : .scalar '|' ∉ previous) :
    rows.foldlM verifyRow previous = .ok h ↔ ∃ bodies, Links previous bodies rows h := by
  induction rows generalizing previous with
  | nil =>
    constructor
    · intro ok
      cases ok
      exact ⟨[], .nil⟩
    · rintro ⟨bodies, links⟩
      cases links
      rfl
  | cons row rows ih =>
    rw [List.foldlM_cons]
    constructor
    · intro ok
      obtain ⟨hash, verified, ok⟩ := bind_ok.1 ok
      obtain ⟨body, link⟩ := (verifyRow_eq_ok_iff plain).1 verified
      obtain ⟨bodies, links⟩ := (ih link.plain).1 ok
      exact ⟨body :: bodies, .cons link links⟩
    · rintro ⟨bodies, links⟩
      cases links with
      | cons link links =>
        exact bind_ok.2 ⟨_, (verifyRow_eq_ok_iff plain).2 ⟨_, link⟩,
          (ih link.plain).2 ⟨_, links⟩⟩

theorem verifyChain_eq_ok_iff : verifyChain rows = .ok h ↔ ∃ bodies, Links GENESIS bodies rows h :=
  foldlM_verifyRow_iff bar_notMem_genesis

theorem chainOf_eq_ok_iff {Takes : PyStr → Prop}
    (spec : ∀ body previous row, sealer body previous = .ok row ↔
    Takes body ∧ ∃ h, Link previous body row h) :
    chainOf sealer previous bodies = .ok rows ↔ (∀ body ∈ bodies, Takes body) ∧
        ∃ h, Links previous bodies rows h := by
  induction bodies generalizing previous rows with
  | nil =>
    constructor
    · intro ok
      cases ok
      exact ⟨fun _ => nofun, previous, .nil⟩
    · rintro ⟨-, h, links⟩
      cases links
      rfl
  | cons body bodies ih =>
    unfold chainOf
    constructor
    · intro ok
      obtain ⟨sealed, first, ok⟩ := bind_ok.1 ok
      obtain ⟨later, others, ok⟩ := bind_ok.1 ok
      cases ok
      obtain ⟨takes, hash, link⟩ := (spec body previous sealed).1 first
      rw [link.hashOf_eq] at others
      obtain ⟨all, h, links⟩ := ih.1 others
      exact ⟨List.forall_mem_cons.2 ⟨takes, all⟩, h, .cons link links⟩
    · rintro ⟨takes, h, links⟩
      obtain ⟨here, takes⟩ := List.forall_mem_cons.1 takes
      cases links with
      | @cons _ _ row hash _ _ later link links =>
        refine bind_ok.2 ⟨row, (spec body previous row).2 ⟨here, hash, link⟩, ?_⟩
        rw [link.hashOf_eq]
        exact bind_ok.2 ⟨later, ih.2 ⟨takes, h, links⟩, rfl⟩

theorem Links.bodies_unique (links : Links previous bodies rows h)
    (links' : Links previous bodies' rows h')
    (plain : .scalar '|' ∉ previous) : bodies = bodies' := by
  induction links generalizing bodies' h' with
  | nil =>
    cases links'
    rfl
  | cons link links ih =>
    cases links' with
    | cons link' links' =>
      have same : rsplit? PREVIOUS _ = rsplit? PREVIOUS _ :=
          congrArg (rsplit? PREVIOUS) (link.bodyOf_eq.symm.trans link'.bodyOf_eq)
      rw [rsplit_previous plain, rsplit_previous plain] at same
      cases same
      cases link.hashOf_eq.symm.trans link'.hashOf_eq
      rw [ih links' link.plain]

theorem verifies_iff : Verifies rows ↔ ∃ bodies, chainOf sealUnchecked GENESIS bodies =
    .ok rows := by
  have spec (bodies : List PyStr) : chainOf sealUnchecked GENESIS bodies = .ok rows ↔
      (∀ body ∈ bodies, True) ∧ ∃ h, Links GENESIS bodies rows h :=
    chainOf_eq_ok_iff fun _ _ _ => sealUnchecked_spec
  constructor
  · rintro ⟨h, verified⟩
    obtain ⟨bodies, links⟩ := verifyChain_eq_ok_iff.1 verified
    exact ⟨bodies, (spec bodies).2 ⟨fun _ _ => trivial, h, links⟩⟩
  · rintro ⟨bodies, made⟩
    obtain ⟨-, h, links⟩ := (spec bodies).1 made
    exact ⟨h, verifyChain_eq_ok_iff.2 ⟨bodies, links⟩⟩

theorem chainOf_sealReceipt_iff : chainOf sealReceipt GENESIS bodies = .ok rows ↔
    (∀ body ∈ bodies, ¬ Broken body) ∧ chainOf sealUnchecked GENESIS bodies = .ok rows := by
  rw [chainOf_eq_ok_iff fun _ _ _ => sealReceipt_eq_ok_iff,
    chainOf_eq_ok_iff fun _ _ _ => sealUnchecked_spec]
  constructor
  · exact fun h => ⟨h.1, fun _ _ => trivial, h.2⟩
  · exact fun h => ⟨h.1, h.2.2⟩

theorem IsSealed.verifies (sealed : IsSealed rows) : Verifies rows := by
  obtain ⟨bodies, made⟩ := sealed
  exact verifies_iff.2 ⟨bodies, (chainOf_sealReceipt_iff.1 made).2⟩

theorem chainOf_unique (made : chainOf sealUnchecked GENESIS bodies = .ok rows)
    (made' : chainOf sealUnchecked GENESIS bodies' = .ok rows) : bodies = bodies' := by
  rw [chainOf_eq_ok_iff fun _ _ _ => sealUnchecked_spec] at made made'
  obtain ⟨-, h, links⟩ := made
  obtain ⟨-, h', links'⟩ := made'
  exact links.bodies_unique links' bar_notMem_genesis

/-! ## Digests that differ -/

/-- The digests of the bodies of the rows differ from the genesis and from each other. -/
def CollisionFree (rows : List PyStr) : Prop :=
  ∀ row ∈ rows, ∀ encoded, (bodyOf row).encode = some encoded → digestOf encoded ≠ GENESIS ∧
    ∀ row' ∈ rows, ∀ encoded', (bodyOf row').encode = some encoded' →
      digestOf encoded = digestOf encoded' →
      bodyOf row = bodyOf row'

theorem CollisionFree.mono (free : CollisionFree rows) (sub : ∀ row ∈ rows', row ∈ rows) :
    CollisionFree rows' := by
  intro row mem encoded encodes
  obtain ⟨genesis, others⟩ := free row (sub row mem) encoded encodes
  exact ⟨genesis, fun row' mem' => others row' (sub row' mem')⟩

theorem Links.append_iff {last : PyStr} : (∃ bodies, Links previous bodies (rows ++ rows') last) ↔
    ∃ h bodies bodies', Links previous bodies rows h ∧ Links h bodies' rows' last := by
  induction rows generalizing previous with
  | nil =>
    constructor
    · rintro ⟨bodies, links⟩
      exact ⟨previous, [], bodies, .nil, links⟩
    · rintro ⟨h, bodies, bodies', links, links'⟩
      cases links
      exact ⟨bodies', links'⟩
  | cons row rows ih =>
    constructor
    · rintro ⟨bodies, links⟩
      cases links with
      | cons link links =>
        obtain ⟨h, one, two, first, second⟩ := ih.1 ⟨_, links⟩
        exact ⟨h, _, two, .cons link first, second⟩
    · rintro ⟨h, bodies, bodies', links, links'⟩
      cases links with
      | cons link links =>
        obtain ⟨whole, links⟩ := ih.2 ⟨h, _, bodies', links, links'⟩
        exact ⟨_, .cons link links⟩

theorem verifyChain_concat_iff :
    verifyChain (rows ++ [row]) = .ok h ↔ ∃ previous body, verifyChain rows = .ok previous ∧
        Link previous body row h := by
  rw [verifyChain_eq_ok_iff, Links.append_iff]
  constructor
  · rintro ⟨previous, bodies, bodies', links, links'⟩
    cases links' with
    | cons link links' =>
      cases links'
      exact ⟨previous, _, verifyChain_eq_ok_iff.2 ⟨bodies, links⟩, link⟩
  · rintro ⟨previous, body, verified, link⟩
    obtain ⟨bodies, links⟩ := verifyChain_eq_ok_iff.1 verified
    exact ⟨previous, bodies, [body], links, .cons link .nil⟩

theorem plain_of_verifyChain (verified : verifyChain rows = .ok h) : .scalar '|' ∉ h := by
  induction rows using List.reverseRecOn with
  | nil =>
    cases verified
    exact bar_notMem_genesis
  | append_singleton rows row =>
    obtain ⟨previous, body, -, link⟩ := verifyChain_concat_iff.1 verified
    exact link.plain

theorem eq_of_verifyChain (verified : verifyChain rows = .ok h)
    (verified' : verifyChain rows' = .ok h)
    (free : CollisionFree (rows ++ rows')) : rows = rows' := by
  have genesis {all : List PyStr} {last : PyStr} (free : CollisionFree (all ++ [last])) :
      verifyChain (all ++ [last]) ≠ .ok GENESIS := by
    intro verified
    obtain ⟨previous, body, -, link⟩ := verifyChain_concat_iff.1 verified
    have whole := link.bodyOf_eq
    obtain ⟨-, encoded, encodes, same⟩ := link
    exact (free last (by simp) encoded (by rw [whole, encodes])).1 same.symm
  induction rows using List.reverseRecOn generalizing rows' h with
  | nil =>
    cases verified
    rcases List.eq_nil_or_concat rows' with rfl | ⟨all, last, rfl⟩
    · rfl
    · rw [List.concat_eq_append] at *
      exact absurd verified' (genesis free)
  | append_singleton rows row ih =>
    rcases List.eq_nil_or_concat rows' with rfl | ⟨all, last, rfl⟩
    · cases verified'
      exact absurd verified (genesis (free.mono fun _ => List.mem_append_left _))
    · rw [List.concat_eq_append] at *
      obtain ⟨previous, body, before, link⟩ := verifyChain_concat_iff.1 verified
      obtain ⟨previous', body', before', link'⟩ := verifyChain_concat_iff.1 verified'
      obtain ⟨shape, encoded, encodes, digest⟩ := id link
      obtain ⟨shape', encoded', encodes', digest'⟩ := id link'
      have bodies : bodyOf row = bodyOf last := by
        refine (free row
          (by simp) encoded (by rw [link.bodyOf_eq, encodes])).2 last (by simp) encoded' ?_ ?_
        · rw [link'.bodyOf_eq, encodes']
        · exact digest.symm.trans digest'
      rw [link.bodyOf_eq, link'.bodyOf_eq] at bodies
      have parts := congrArg (rsplit? PREVIOUS) bodies
      rw [rsplit_previous (plain_of_verifyChain before),
        rsplit_previous (plain_of_verifyChain before')] at parts
      cases parts
      rw [ih before before' (free.mono fun row mem => by
        rcases List.mem_append.1 mem with mem | mem
        · exact List.mem_append_left _ (List.mem_append_left _ mem)
        · exact List.mem_append_right _ (List.mem_append_left _ mem)), shape, shape']

theorem eq_of_shared (verified : Verifies (pre ++ row :: post))
    (verified' : Verifies (pre' ++ row :: post'))
    (free : CollisionFree (pre ++ pre')) : pre = pre' := by
  obtain ⟨last, verified⟩ := verified
  obtain ⟨last', verified'⟩ := verified'
  obtain ⟨h, bodies, rest, links, behind⟩ := Links.append_iff.1 (verifyChain_eq_ok_iff.1 verified)
  obtain ⟨h', bodies', rest', links', behind'⟩ :=
      Links.append_iff.1 (verifyChain_eq_ok_iff.1 verified')
  have before := verifyChain_eq_ok_iff.2 ⟨bodies, links⟩
  have before' := verifyChain_eq_ok_iff.2 ⟨bodies', links'⟩
  cases behind with
  | cons link _ =>
    cases behind' with
    | cons link' _ =>
      have same := congrArg (rsplit? PREVIOUS) (link.bodyOf_eq.symm.trans link'.bodyOf_eq)
      rw [rsplit_previous (plain_of_verifyChain before),
        rsplit_previous (plain_of_verifyChain before')] at same
      cases same
      exact eq_of_verifyChain before before' free

/-! ## Verifying and sealing -/

/-- Verifying accepts rows exactly when they are sealed, unless they are a chain of bodies of which
one is broken; sealed rows verify; and as long as the digests that occur differ, a chain from which
a row in front of another one is dropped or replaced does not verify, nor do its rows in another
order, and no other chain has its last hash. -/
theorem verifies_iff_isSealed_iff (rows : List PyStr) :
    ((Verifies rows ↔ IsSealed rows) ↔
      ¬ ∃ bodies, chainOf sealUnchecked GENESIS bodies = .ok rows ∧ ∃ body ∈ bodies, Broken body) ∧
    (IsSealed rows → Verifies rows) ∧
    (∀ pre row next post, Verifies (pre ++ row :: next :: post) →
    CollisionFree (pre ++ row :: next :: post) →
      ¬ Verifies (pre ++ next :: post)) ∧
    (∀ pre row other next post, Verifies (pre ++ row :: next :: post) → other ≠ row →
      CollisionFree (pre ++ row :: other :: pre) → ¬ Verifies (pre ++ other :: next :: post)) ∧
    (∀ rows', Verifies rows → Verifies rows' → rows.Perm rows' → CollisionFree rows →
    rows = rows') ∧
    ∀ rows' h, verifyChain rows = .ok h → verifyChain rows' = .ok h →
        CollisionFree (rows ++ rows') → rows = rows' := by
  refine ⟨⟨?_, ?_⟩, IsSealed.verifies, ?_, ?_, ?_, fun rows' h => eq_of_verifyChain⟩
  · rintro same ⟨bodies, made, body, mem, broken⟩
    obtain ⟨bodies', sealed⟩ := same.1 (verifies_iff.2 ⟨bodies, made⟩)
    obtain ⟨whole, made'⟩ := chainOf_sealReceipt_iff.1 sealed
    rw [chainOf_unique made' made] at whole
    exact whole body mem broken
  · intro clean
    refine ⟨fun verified => ?_, IsSealed.verifies⟩
    obtain ⟨bodies, made⟩ := verifies_iff.1 verified
    refine ⟨bodies, chainOf_sealReceipt_iff.2 ⟨fun body mem broken => ?_, made⟩⟩
    exact clean ⟨bodies, made, body, mem, broken⟩
  · intro pre row next post verified free dropped
    have kept : Verifies ((pre ++ [row]) ++ next :: post) := by rwa [List.append_assoc]
    have longer : pre ++ [row] = pre := by
      refine eq_of_shared kept dropped ?_
      refine free.mono fun other mem => ?_
      rcases List.mem_append.1 mem with mem | mem
      · rcases List.mem_append.1 mem with mem | mem
        · exact List.mem_append_left _ mem
        · exact List.mem_append_right _ (List.mem_singleton.1 mem ▸ List.mem_cons_self)
      · exact List.mem_append_left _ mem
    simp at longer
  · intro pre row other next post verified ne free altered
    have kept : Verifies ((pre ++ [row]) ++ next :: post) := by rwa [List.append_assoc]
    have replaced : Verifies ((pre ++ [other]) ++ next :: post) := by rwa [List.append_assoc]
    have same : pre ++ [row] = pre ++ [other] := by
      refine eq_of_shared kept replaced (free.mono fun x mem => ?_)
      simp only [List.mem_append, List.mem_cons, List.not_mem_nil, or_false] at mem ⊢
      tauto
    exact ne (List.singleton_inj.1 (List.append_cancel_left same)).symm
  · intro rows' verified verified' perm free
    rcases List.eq_nil_or_concat rows with rfl | ⟨before, last, rfl⟩
    · exact (List.nil_perm.1 perm).symm
    · rw [List.concat_eq_append] at *
      obtain ⟨pre, post, rfl⟩ :=
          List.append_of_mem
          (perm.mem_iff.1 (List.mem_append_right before (List.mem_singleton_self last)))
      have front : before = pre := by
        refine eq_of_shared verified verified' (free.mono fun row mem => ?_)
        rcases List.mem_append.1 mem with mem | mem
        · exact List.mem_append_left _ mem
        · exact perm.mem_iff.2 (List.mem_append_left _ mem)
      subst front
      have count := perm.length_eq
      simp only [List.length_append, List.length_cons, List.length_nil] at count
      rw [List.length_eq_zero_iff.1 (show post.length = 0 by omega)]

/-- A row with a line feed inside verifies when its hashes are right, but cannot be sealed. -/
theorem not_verifies_iff_isSealed : ∃ row, sealUnchecked "a\nb" GENESIS = .ok row ∧
    ¬ (Verifies [row] ↔ IsSealed [row]) := by
  have plain (n : Fin 2048) : PyChar.surrogate n ∉ ("a\nb" : PyStr) ++ (PREVIOUS ++ GENESIS) := by
    intro mem
    rcases List.mem_append.1 mem with mem | mem
    · exact Json.surrogate_notMem_ofChars n _ mem
    · rcases List.mem_append.1 mem with mem | mem
      · exact Json.surrogate_notMem_ofChars n "|prev_event_hash=".toList mem
      · cases List.eq_of_mem_replicate mem
  obtain ⟨encoded, encodes⟩ := Option.isSome_iff_exists.1 ((PyStr.encode_isSome_iff _).2 plain)
  have made :
      sealUnchecked "a\nb" GENESIS =
      .ok (("a\nb" : PyStr) ++ (PREVIOUS ++ GENESIS) ++ (EVENT ++ digestOf encoded)) :=
    sealUnchecked_eq_ok_iff.2 ⟨_, rfl, encoded, encodes, rfl⟩
  have chain : chainOf sealUnchecked GENESIS ["a\nb"] = .ok [_] :=
      bind_ok.2 ⟨_, made, rfl⟩
  refine ⟨_, made, fun same => ?_⟩
  obtain ⟨bodies, sealed⟩ := same.1 (verifies_iff.2 ⟨_, chain⟩)
  obtain ⟨whole, made'⟩ := chainOf_sealReceipt_iff.1 sealed
  rw [chainOf_unique made' chain] at whole
  exact whole _ (List.mem_singleton_self _) (.inl (by decide))

end Prism

end SimplicioFast
