import SimplicioFast.Workspace.LeaseSteps

/-!
# Leased generations

`acquire_lease` checks the manifest and then writes its lease, and `gc` reads the leases and then removes.  A leased
generation survives in every run in which no collection removes a generation that a call found whose lease it has not
listed, no unexpired lease fails to be read by a collection that removes, and no collection is given a time ahead of
the clock (`always_survives_of_along`).
-/

namespace SimplicioFast

namespace Workspace

variable {w w' : World} {i k : ℕ} {c c' : Caller} {generation : PyStr} {g : Collection} {name : LeaseName}
  {seen files : List PyStr} {expiresAt : Expiry} {fails cached : Bool} {e : Event}

/-! ## `gc` -/

variable {now : Option ℚ} {apply : Bool}

theorem not_relies_of_gc (op : c.op = .gc now apply) (pc : At) {t : ℚ} :
    ¬ Caller.relies { c with pc := pc } t generation seen := by
  rintro ⟨ttl, op', -⟩
  have op' : c.op = .acquire generation ttl := op'
  rw [op] at op'
  cases op'

theorem World.Inv.collect (h : w.Inv) (hc : w.callers[i]? = some c) (op : c.op = .gc now apply)
    (before : c.pc.isReturned = false) {pc : At} (after : pc.isReturned = false)
    (collects : ∀ g, apply = true → pc.collection? = some g → w.Collects pc g) : (w.goto i c pc).Inv := by
  refine h.goto hc before after (fun generation seen rely => ?_) fun now' g op' hg => ?_
  · exact absurd rely (not_relies_of_gc op pc)
  · obtain ⟨-, same⟩ := Op.gc.inj (op.symm.trans op')
    exact collects g same hg

theorem World.Inv.start (h : w.Inv) (hc : w.callers[i]? = some c) (op : c.op = .gc now apply) (pc : c.pc = .starting)
    (safe : apply = true → w.SafeCollection fails now c.pc) : (w.goto i c (.listing { now := w.timeOf now })).Inv := by
  refine h.collect hc op (by rw [pc]; rfl) rfl fun g applies hg => ?_
  cases hg
  have time := safe applies
  rw [pc] at time
  exact ⟨time, fun _ lists => (by cases lists), fun _ _ _ _ _ lists => (by cases lists), List.forall_mem_nil _,
    fun _ => rfl, fun late => (by cases late), List.forall_mem_nil _, fun _ _ pc => by cases pc⟩

theorem World.Inv.list (h : w.Inv) (hc : w.callers[i]? = some c) (op : c.op = .gc now apply) (pc : c.pc = .listing g) :
    (w.goto i c (.scanning { g with listed := w.leaseNames, todo := w.leaseNames })).Inv := by
  refine h.collect hc op (by rw [pc]; rfl) rfl fun g' applies hg => ?_
  cases hg
  subst applies
  have old := h.collects i c now g hc op (by rw [pc]; rfl)
  refine ⟨old.now_le, fun k lists => ?_, fun _ _ _ _ _ lists => .inl lists, fun _ => id, fun _ => old.early (by rw [pc]; rfl),
    fun late => (by cases late), old.apart, fun _ _ pc => by cases pc⟩
  have mem : LeaseName.own k ∈ w.foreign.keys.map LeaseName.foreign ++ w.own.keys.map LeaseName.own := lists
  rcases List.mem_append.1 mem with mem | mem
  · obtain ⟨_, -, e⟩ := List.mem_map.1 mem
    cases e
  · obtain ⟨k', mem, e⟩ := List.mem_map.1 mem
    cases e
    obtain ⟨⟨_, file⟩, entry, rfl⟩ := List.mem_map.1 mem
    exact h.named _ file ((Dict.get?_eq_some_iff _ _ _).2 entry)

theorem World.Inv.leaseFile (h : w.Inv) (hk : w.callers[k]? = some c) (leases : c.leases w.now generation) :
    ∃ expiresAt, w.leaseFile? (.own k) = some (.lease generation expiresAt) ∧ (w.now : Expiry) < expiresAt := by
  obtain ⟨ttl, seen, expiresAt, op, pc, unreleased, unexpired⟩ := leases
  exact ⟨expiresAt, h.filed k c generation ttl seen expiresAt hk op pc unreleased unexpired, unexpired⟩

theorem World.Inv.discard (h : w.Inv) (hc : w.callers[i]? = some c) (op : c.op = .gc now apply)
    (pc : c.pc = .scanning g) {todo : List LeaseName} (next : g.todo = name :: todo)
    (free : apply = true → ∀ k, name = .own k → ∀ (c : Caller) generation, w.callers[k]? = some c →
      ¬ c.leases w.now generation) :
    (w.goto i c (if apply then .dropping name { g with todo := todo } else .scanning { g with todo := todo })).Inv := by
  have before : c.pc.isReturned = false := by rw [pc]; rfl
  cases apply with
  | false => exact h.collect hc op before rfl fun g' applies => by cases applies
  | true =>
    refine h.collect hc op before rfl fun g' applies hg => ?_
    cases hg
    have old := h.collects i c now g hc op (by rw [pc]; rfl)
    refine ⟨old.now_le, old.listed, fun k d generation hk leases lists => ?_, fun n mem => ?_,
      fun _ => old.early (by rw [pc]; rfl), fun late => (by cases late), old.apart, fun k g' pc' => ?_⟩
    · rcases old.protects k d generation hk leases lists with mem | protectedId
      · rw [next] at mem
        rcases List.mem_cons.1 mem with same | mem
        · exact absurd leases (free rfl k same.symm d generation hk)
        · exact .inl mem
      · exact .inr protectedId
    · exact old.inside n (by rw [next]; exact List.mem_cons_of_mem _ mem)
    · cases pc'
      exact ⟨old.inside _ (by rw [next]; exact List.mem_cons_self), fun d generation hk => free rfl k rfl d generation hk⟩

theorem World.Inv.scan (h : w.Inv) (hc : w.callers[i]? = some c) (op : c.op = .gc now apply) (pc : c.pc = .scanning g)
    (safe : apply = true → w.SafeCollection fails now c.pc) : (w.scan i c g apply fails).Inv := by
  have before : c.pc.isReturned = false := by rw [pc]; rfl
  unfold World.scan
  split
  · next none =>
    refine h.collect hc op before rfl fun g' applies hg => ?_
    cases hg
    subst applies
    have old := h.collects i c now g hc op (by rw [pc]; rfl)
    exact ⟨old.now_le, old.listed, old.protects, old.inside, fun late => (by cases late), fun _ => none, old.apart,
      fun _ _ pc => by cases pc⟩
  · next name todo next =>
    have readable (applies : apply = true) (k : ℕ) (d : Caller) (generation : PyStr) (same : name = .own k)
        (hk : w.callers[k]? = some d) (leases : d.leases w.now generation) : fails = false := by
      have safe := safe applies
      rw [pc] at safe
      exact safe k d generation (by rw [next, same]; rfl) hk leases
    dsimp only
    split
    · next missing =>
      refine h.discard hc op pc next fun applies k same d generation hk leases => ?_
      obtain ⟨expiresAt, found, -⟩ := h.leaseFile hk leases
      rw [readable applies k d generation same hk leases, same, found] at missing
      cases missing
    · next caught =>
      refine h.discard hc op pc next fun applies k same d generation hk leases => ?_
      obtain ⟨expiresAt, found, -⟩ := h.leaseFile hk leases
      rw [readable applies k d generation same hk leases, same, found] at caught
      cases caught
    · exact h.idle hc before (.inl rfl)
    · next generation expiresAt file =>
      have file := (Option.ite_none_left_eq_some.1 file).2
      split
      · refine h.collect hc op before rfl fun g' applies hg => ?_
        cases hg
        subst applies
        have old := h.collects i c now g hc op (by rw [pc]; rfl)
        refine ⟨old.now_le, old.listed, fun k d generation' hk leases lists => ?_, fun n mem => ?_,
          fun _ => old.early (by rw [pc]; rfl), fun late => (by cases late), ?_, fun _ _ pc => by cases pc⟩
        · rcases old.protects k d generation' hk leases lists with mem | protectedId
          · rw [next] at mem
            rcases List.mem_cons.1 mem with same | mem
            · obtain ⟨e, found, -⟩ := h.leaseFile hk leases
              have same : w.leaseFile? (.own k) = _ := (congrArg w.leaseFile? same).trans file
              rw [found] at same
              cases same
              exact .inr (List.mem_append_right _ (List.mem_singleton_self _))
            · exact .inl mem
          · exact .inr (List.mem_append_left _ protectedId)
        · exact old.inside n (by rw [next]; exact List.mem_cons_of_mem _ mem)
        · rw [old.early (by rw [pc]; rfl)]
          exact List.forall_mem_nil _
      · next expired =>
        refine h.discard hc op pc next fun applies k same d generation' hk leases => ?_
        subst applies
        obtain ⟨e, found, unexpired⟩ := h.leaseFile hk leases
        rw [same, found] at file
        cases file
        have le := (h.collects i c now g hc op (by rw [pc]; rfl)).now_le
        exact expired ((WithTop.coe_le_coe.2 le).trans_lt unexpired)

theorem World.Inv.drop (h : w.Inv) (hc : w.callers[i]? = some c) (op : c.op = .gc now apply)
    (pc : c.pc = .dropping name g) (applies : apply = true) : ((w.unlink name).goto i c (.scanning g)).Inv := by
  subst applies
  have before : c.pc.isReturned = false := by rw [pc]; rfl
  have old := h.collects i c now g hc op (by rw [pc]; rfl)
  have dirs : (w.unlink name).dirs = w.dirs := by cases name <;> rfl
  refine h.change hc (by cases name <;> rfl) (by cases name <;> rfl) before rfl (fun k d generation hk leases => ?_)
    (fun k file found => named_unlink h found) (fun k d generation seen hk rely => ?_) (fun generation seen rely => ?_)
    fun t g' _ hg => ?_
  · refine own_unlink (fun k' same d' generation' hk' => ?_) hk leases
    exact (old.dropping k' g (by rw [pc, same])).2 d' generation' hk'
  · obtain ⟨d, found, sub⟩ := h.intact k d generation seen hk rely
    exact ⟨d, (congrArg (fun m => Dict.get? m generation) dirs).trans found, sub⟩
  · exact absurd rely (not_relies_of_gc op _)
  · cases hg
    exact ⟨old.now_le, old.listed, old.protects, old.inside, fun _ => old.early (by rw [pc]; rfl),
      fun late => (by cases late), old.apart, fun _ _ pc => by cases pc⟩

theorem World.Inv.later (h : w.Inv) (hc : w.callers[i]? = some c) (op : c.op = .gc now apply)
    (before : c.pc.collection? = some g) (late : c.pc.isLate = true) {pc : At} {g' : Collection}
    (after : pc.collection? = some g') (late' : pc.isLate = true) (read : g'.now = g.now ∧ g'.listed = g.listed ∧
      g'.todo = g.todo ∧ g'.protectedIds = g.protectedIds)
    (apart : (∀ generation ∈ g.candidates, generation ∉ g.protectedIds) →
      ∀ generation ∈ g'.candidates, generation ∉ g.protectedIds) : (w.goto i c pc).Inv := by
  obtain ⟨now_eq, listed, todo, protectedIds⟩ := read
  refine h.collect hc op ?_ ?_ fun g'' applies hg => ?_
  · revert late
    cases c.pc <;> first | exact fun _ => rfl | exact fun late => (by cases late)
  · revert late'
    cases pc <;> first | exact fun _ => rfl | exact fun late => (by cases late)
  · subst applies
    cases after.symm.trans hg
    have old := h.collects i c now g hc op before
    refine ⟨now_eq.trans_le old.now_le, ?_, ?_, ?_, fun early => ?_, fun _ => todo.trans (old.late late), ?_, fun k g'' pc' => ?_⟩
    · unfold Collection.Lists
      rw [listed]
      exact old.listed
    · unfold Collection.Lists
      rw [listed, todo, protectedIds]
      exact old.protects
    · rw [listed, todo]
      exact old.inside
    · rw [late'] at early
      cases early
    · rw [protectedIds]
      exact apart old.apart
    · rw [pc'] at late'
      cases late'

theorem World.Inv.test (h : w.Inv) (hc : w.callers[i]? = some c) (op : c.op = .gc now apply) (pc : c.pc = .testing g) :
    (w.test i c g apply).Inv := by
  have before : c.pc.isReturned = false := by rw [pc]; rfl
  unfold World.test
  split
  · cases apply with
    | false => exact h.idle hc before (.inr (.inl rfl))
    | true =>
      exact h.later (g := g) hc op (by rw [pc]; rfl) (by rw [pc]; rfl) (show At.collection? (.clearing g) = some g from rfl) rfl ⟨rfl, rfl, rfl, rfl⟩ id
  · next name entries _ =>
    refine h.later (g := g) hc op (by rw [pc]; rfl) (by rw [pc]; rfl) rfl rfl ⟨rfl, rfl, rfl, rfl⟩ fun apart generation mem => ?_
    dsimp only at mem
    split at mem
    · next chosen =>
      rcases List.mem_append.1 mem with mem | mem
      · exact apart generation mem
      · obtain rfl := List.mem_singleton.1 mem
        simpa using (Bool.and_eq_true_iff.1 chosen).2
    · exact apart generation mem

theorem World.Inv.clear (h : w.Inv) (hc : w.callers[i]? = some c) (op : c.op = .gc now apply) (pc : c.pc = .clearing g) :
    (w.clear i c g).Inv := by
  have before : c.pc.isReturned = false := by rw [pc]; rfl
  unfold World.clear
  split
  · exact h.idle hc before (.inr (.inl rfl))
  · split
    · exact h.idle hc before (.inl rfl)
    · next d _ =>
      exact h.later (g := g) hc op (by rw [pc]; rfl) (by rw [pc]; rfl) (show At.collection? (.deleting d.files g) = some g from rfl) rfl ⟨rfl, rfl, rfl, rfl⟩ id

theorem World.Inv.unused (h : w.Inv) (hc : w.callers[i]? = some c) (op : c.op = .gc now true)
    (pc : c.pc = .deleting files g) (safe : w.SafeCollection fails now c.pc) (next : g.candidates.head? = some generation)
    (hk : w.callers[k]? = some c') : ¬ c'.relies w.now generation seen := by
  intro rely
  rw [pc] at safe
  have lists := safe generation next k c' seen hk rely
  have old := h.collects i c now g hc op (by rw [pc]; rfl)
  -- a lease that was listed was returned, and then read
  obtain ⟨d, hd, returned⟩ := old.listed k lists
  rw [hk] at hd
  cases hd
  obtain ⟨ttl, op', pc' | ⟨_, pc'⟩ | ⟨expiresAt, pc', unreleased, unexpired⟩⟩ := rely
  · rw [pc'] at returned
    cases returned
  · rw [pc'] at returned
    cases returned
  · rcases old.protects k c' generation hk ⟨ttl, seen, expiresAt, op', pc', unreleased, unexpired⟩ lists with mem | mem
    · rw [old.late (by rw [pc]; rfl)] at mem
      cases mem
    · exact old.apart generation (List.mem_of_head? next) mem

theorem World.Inv.delete (h : w.Inv) (hc : w.callers[i]? = some c) (op : c.op = .gc now true)
    (pc : c.pc = .deleting files g) (safe : w.SafeCollection fails now c.pc) : (w.delete i c files g fails).Inv := by
  have before : c.pc.isReturned = false := by rw [pc]; rfl
  have unused {generation : PyStr} (next : g.candidates.head? = some generation) {k : ℕ} {d : Caller} {seen : List PyStr}
      (hk : w.callers[k]? = some d) : ¬ d.relies w.now generation seen := h.unused hc op pc safe next hk
  have old := h.collects i c now g hc op (by rw [pc]; rfl)
  unfold World.delete
  split
  · exact h
  · next name candidates next =>
    have head : g.candidates.head? = some name := by rw [next]; rfl
    split
    · next d _ _ =>
      split
      · exact h.idle hc before (.inl rfl)
      · refine h.change hc rfl rfl before rfl (fun _ _ _ _ _ => rfl) h.named (fun k d generation seen hk rely => ?_)
          (fun generation seen rely => absurd rely (not_relies_of_gc op _)) fun t g' _ hg => ?_
        · obtain ⟨d', found, sub⟩ := h.intact k d generation seen hk rely
          refine ⟨d', ?_, sub⟩
          refine (Dict.get?_erase _ _ _).trans ((if_neg fun same => ?_).trans found)
          subst same
          exact unused head hk rely
        · cases hg
          refine ⟨old.now_le, old.listed, old.protects, old.inside, fun early => (by cases early),
            fun _ => old.late (by rw [pc]; rfl), fun generation mem => ?_, fun _ _ pc => by cases pc⟩
          exact old.apart generation (by rw [next]; exact List.mem_cons_of_mem _ mem)
    · exact h.idle hc before (.inl rfl)
    · next file rest d _ =>
      split
      · exact h.idle hc before (.inl rfl)
      · refine h.change hc rfl rfl before rfl (fun _ _ _ _ _ => rfl) h.named (fun k d generation seen hk rely => ?_)
          (fun generation seen rely => absurd rely (not_relies_of_gc op _)) fun t g' _ hg => ?_
        · obtain ⟨d', found, sub⟩ := h.intact k d generation seen hk rely
          refine ⟨d', ?_, sub⟩
          refine (Dict.get?_set_of_ne _ _ fun same => ?_).trans found
          subst same
          exact unused head hk rely
        · cases hg
          exact ⟨old.now_le, old.listed, old.protects, old.inside, fun early => (by cases early),
            fun _ => old.late (by rw [pc]; rfl), old.apart, fun _ _ pc => by cases pc⟩
    · next rest _ =>
      split
      · exact h.idle hc before (.inl rfl)
      · exact h.later (g := g) hc op (by rw [pc]; rfl) (by rw [pc]; rfl) (show At.collection? (.deleting rest g) = some g from rfl) rfl ⟨rfl, rfl, rfl, rfl⟩ id

/-! ## Runs -/

theorem World.Inv.advance (h : w.Inv) (hc : w.callers[i]? = some c)
    (safe : ∀ now, c.op = .gc now true → w.SafeCollection fails now c.pc) : (advance w i c fails cached).Inv := by
  unfold Workspace.advance
  split
  · next generation ttl op pc => exact h.check hc op (by rw [pc]; rfl)
  · next generation ttl op pc => exact h.read hc op (by rw [pc]; rfl)
  · next generation ttl seen op pc => exact h.timed hc pc _
  · next generation ttl seen expiresAt op pc => exact h.publish hc op pc
  · next lease op pc =>
    have before : c.pc.isReturned = false := by rw [pc]; rfl
    split
    · exact h.idle hc before (.inl rfl)
    · split
      · exact h.idle hc before (.inr (.inr (.inr rfl)))
      · exact h.idle hc before (.inr (.inl rfl))
  · next lease op pc =>
    have before : c.pc.isReturned = false := by rw [pc]; rfl
    split
    · exact h.idle hc before (.inl rfl)
    · exact h.release hc op before
  · next now apply op pc => exact h.start hc op pc fun applies => safe now (by rw [op, applies])
  · next now apply g op pc =>
    have before : c.pc.isReturned = false := by rw [pc]; rfl
    split
    · exact h.idle hc before (.inl rfl)
    · exact h.list hc op pc
  · next now apply g op pc => exact h.scan hc op pc fun applies => safe now (by rw [op, applies])
  · next now name g op pc =>
    have before : c.pc.isReturned = false := by rw [pc]; rfl
    split
    · exact h.idle hc before (.inl rfl)
    · exact h.drop hc op pc rfl
  · next now apply g op pc =>
    have before : c.pc.isReturned = false := by rw [pc]; rfl
    split
    · exact h.idle hc before (.inl rfl)
    · exact h.later (g := g) hc op (by rw [pc]; rfl) (by rw [pc]; rfl) rfl rfl ⟨rfl, rfl, rfl, rfl⟩ id
  · next now apply g op pc =>
    have before : c.pc.isReturned = false := by rw [pc]; rfl
    split
    · exact h.idle hc before (.inl rfl)
    · exact h.test hc op pc
  · next now g op pc =>
    have before : c.pc.isReturned = false := by rw [pc]; rfl
    split
    · exact h.idle hc before (.inl rfl)
    · exact h.clear hc op pc
  · next now files g op pc => exact h.delete hc op pc (safe now op)
  · exact h

theorem World.Inv.begin (h : w.Inv) (op : Op) (released : ∀ k, op = .release (.own k) →
    ∃ d, w.callers[k]? = some d ∧ d.released = true) :
    ({ w with callers := w.callers ++ [⟨op, op.first, false⟩] } : World).Inv := by
  have entry (k : ℕ) (d : Caller) (hk : (w.callers ++ [⟨op, op.first, false⟩])[k]? = some d) :
      w.callers[k]? = some d ∨ d = ⟨op, op.first, false⟩ := by
    rcases (getElem?_append_one _ _ _).1 hk with hk | ⟨-, hk⟩
    · exact .inl hk
    · exact .inr hk.symm
  have old (k : ℕ) (d : Caller) (hk : w.callers[k]? = some d) :
      (w.callers ++ [(⟨op, op.first, false⟩ : Caller)])[k]? = some d := (getElem?_append_one _ _ _).2 (.inl hk)
  have idle (t : ℚ) (generation : PyStr) (seen : List PyStr) :
      ¬ Caller.relies ⟨op, op.first, false⟩ t generation seen := by
    rintro ⟨ttl, -, pc | ⟨_, pc⟩ | ⟨_, pc, -⟩⟩ <;> cases op <;> cases pc
  have kept (k : ℕ) (has : w.HasLease k) :
      ({ w with callers := w.callers ++ [⟨op, op.first, false⟩] } : World).HasLease k := by
    obtain ⟨d, hk, returned⟩ := has
    exact ⟨d, old k d hk, returned⟩
  refine ⟨fun k d generation seen hk rely => ?_, fun k d generation ttl seen e hk op' pc unreleased unexpired => ?_,
    fun k file found => kept k (h.named k file found), fun j d k hj op' => ?_, fun j d t g hj op' hg => ?_⟩
  · rcases entry k d hk with hk | rfl
    · exact h.intact k d generation seen hk rely
    · exact absurd rely (idle _ _ _)
  · rcases entry k d hk with hk | rfl
    · exact h.filed k d generation ttl seen e hk op' pc unreleased unexpired
    · exact absurd ⟨ttl, op', .inr (.inr ⟨e, pc, unreleased, unexpired⟩)⟩ (idle w.now generation seen)
  · have before : ∃ d, w.callers[k]? = some d ∧ d.released = true := by
      rcases entry j d hj with hj | rfl
      · exact h.releases j d k hj op'
      · exact released k op'
    obtain ⟨d', hk, flag⟩ := before
    exact ⟨d', old k d' hk, flag⟩
  · rcases entry j d hj with hj | rfl
    · refine (h.collects j d t g hj op' hg).later le_rfl kept fun k d generation hk leases _ => ?_
      rcases entry k d hk with hk | rfl
      · exact ⟨d, hk, leases⟩
      · obtain ⟨seen, rely⟩ := relies_of_leases leases
        exact absurd rely (idle _ _ _)
    · cases op <;> cases hg

theorem World.Inv.flag (h : w.Inv) (hk : w.callers[k]? = some c) :
    ({ w with callers := w.callers.set k { c with released := true } } : World).Inv := by
  have entry (j : ℕ) (d : Caller) (hj : (w.callers.set k { c with released := true })[j]? = some d) :
      j = k ∧ d = { c with released := true } ∨ j ≠ k ∧ w.callers[j]? = some d := by
    rw [getElem?_set_of_some _ hk] at hj
    split at hj
    · next same => exact .inl ⟨same, (Option.some.inj hj).symm⟩
    · next other => exact .inr ⟨other, hj⟩
  have old (j : ℕ) (d : Caller) (hj : w.callers[j]? = some d) :
      ∃ d', (w.callers.set k { c with released := true })[j]? = some d' ∧ d'.pc = d.pc ∧
        (d.released = true → d'.released = true) := by
    by_cases same : j = k
    · subst same
      rw [hk] at hj
      cases hj
      exact ⟨_, (getElem?_set_of_some _ hk _).trans (if_pos rfl), rfl, fun _ => rfl⟩
    · exact ⟨d, (getElem?_set_of_some _ hk _).trans ((if_neg same).trans hj), rfl, id⟩
  have kept (j : ℕ) (has : w.HasLease j) :
      ({ w with callers := w.callers.set k { c with released := true } } : World).HasLease j := by
    obtain ⟨d, hj, returned⟩ := has
    obtain ⟨d', hj, pc, -⟩ := old j d hj
    exact ⟨d', hj, by rw [pc, returned]⟩
  have weaker {t : ℚ} {generation : PyStr} {seen : List PyStr}
      (rely : Caller.relies { c with released := true } t generation seen) : c.relies t generation seen := by
    obtain ⟨ttl, op, pc | pc | ⟨_, -, unreleased, -⟩⟩ := rely
    · exact ⟨ttl, op, .inl pc⟩
    · exact ⟨ttl, op, .inr (.inl pc)⟩
    · cases unreleased
  refine ⟨fun j d generation seen hj rely => ?_, fun j d generation ttl seen e hj op pc unreleased unexpired => ?_,
    fun j file found => kept j (h.named j file found), fun j d l hj op => ?_, fun j d t g hj op hg => ?_⟩
  · rcases entry j d hj with ⟨-, rfl⟩ | ⟨-, hj⟩
    · exact h.intact k c generation seen hk (weaker rely)
    · exact h.intact j d generation seen hj rely
  · rcases entry j d hj with ⟨-, rfl⟩ | ⟨-, hj⟩
    · cases unreleased
    · exact h.filed j d generation ttl seen e hj op pc unreleased unexpired
  · have before : ∃ d, w.callers[l]? = some d ∧ d.released = true := by
      rcases entry j d hj with ⟨-, rfl⟩ | ⟨-, hj⟩
      · exact h.releases k c l hk op
      · exact h.releases j d l hj op
    obtain ⟨d', hl, flag⟩ := before
    obtain ⟨d'', hl, -, still⟩ := old l d' hl
    exact ⟨d'', hl, still flag⟩
  · have before : w.Collects d.pc g := by
      rcases entry j d hj with ⟨-, rfl⟩ | ⟨-, hj⟩
      · exact h.collects k c t g hk op hg
      · exact h.collects j d t g hj op hg
    refine before.later le_rfl kept fun l d generation hl leases _ => ?_
    rcases entry l d hl with ⟨-, rfl⟩ | ⟨-, hl⟩
    · obtain ⟨-, -, -, -, -, unreleased, -⟩ := leases
      cases unreleased
    · exact ⟨d, hl, leases⟩

theorem World.Inv.call (h : w.Inv) (op : Op) : (call w op).Inv := by
  unfold Workspace.call
  split
  · next k =>
    split
    · next c hk =>
      split
      · refine (h.flag hk).begin _ fun k' same => ?_
        cases same
        exact ⟨_, (getElem?_set_of_some _ hk _).trans (if_pos rfl), rfl⟩
      · exact h
    · exact h
  · next other => exact h.begin op fun k same => absurd same (other k)

theorem World.Inv.tick (h : w.Inv) (elapsed : ℚ) : (step w (.tick elapsed)).Inv := by
  have later : w.now ≤ w.now + max 0 elapsed := le_add_of_nonneg_right (le_max_left _ _)
  refine ⟨fun k d generation seen hk rely => ?_, fun k d generation ttl seen e hk op pc unreleased unexpired => ?_,
    h.named, h.releases, fun j d t g hj op hg => ?_⟩
  · exact h.intact k d generation seen hk (relies_earlier later rely)
  · exact h.filed k d generation ttl seen e hk op pc unreleased ((WithTop.coe_le_coe.2 later).trans_lt unexpired)
  · exact (h.collects j d t g hj op hg).later later (fun _ => id)
      fun k d generation hk leases _ => ⟨d, hk, leases_earlier later leases⟩

theorem World.Inv.step (h : w.Inv) (safe : w.Safe e) : (step w e).Inv := by
  cases e with
  | call op => exact h.call op
  | tick elapsed => exact h.tick elapsed
  | advance i fails cached =>
    unfold Workspace.step
    dsimp only
    split
    · exact h
    · next c hc => exact h.advance hc fun now op => safe c now hc op

theorem inv_start (now : ℚ) (foreign : Dict PyStr LeaseFile) (dirs : Dict PyStr Directory) :
    (World.start now foreign dirs).Inv where
  intact := fun _ _ _ _ none => by cases none
  filed := fun _ _ _ _ _ _ none => by cases none
  named := fun _ _ none => by cases none
  releases := fun _ _ _ none => by cases none
  collects := fun _ _ _ _ none => by cases none

/-- In a run whose steps are all safe, every leased generation survives in every state. -/
theorem always_survives_of_along (now : ℚ) (foreign : Dict PyStr LeaseFile) (dirs : Dict PyStr Directory)
    {events : List Event} (safe : Machine.Along step World.Safe (World.start now foreign dirs) events) :
    Machine.Always step World.Survives (World.start now foreign dirs) events := by
  rintro before after rfl
  have inv := (Machine.along_append.1 safe).1.run_invariant (inv_start now foreign dirs) fun w e inv now => inv.step now
  exact inv.survives

def sampleGeneration : PyStr := PyStr.ofChars (List.replicate 64 'a')

def sampleDirs : Dict PyStr Directory :=
  Dict.empty.set sampleGeneration ⟨["manifest.json", "project.sfast"], true⟩

def steps (i n : ℕ) : List Event := List.replicate n (.advance i false false)

/-- A generation is leased without an end before it is collected. -/
theorem always_survives_leased : Machine.Always step World.Survives (World.start 1 .empty sampleDirs)
    (.call (.acquire sampleGeneration ⊤) :: steps 0 4 ++ .call (.gc none true) :: steps 1 8) := by
  refine always_survives_of_along 1 .empty sampleDirs ⟨trivial, ?_, ?_, ?_, ?_, trivial, ?_, ?_, ?_, ?_, ?_, ?_, ?_, ?_,
    trivial⟩ <;> rintro c now ⟨⟩ op
  · cases op
  · cases op
  · cases op
  · cases op
  · cases op
    exact le_refl _
  · trivial
  · exact fun _ _ _ _ _ _ => rfl
  · exact fun _ _ _ _ _ _ => rfl
  · trivial
  · trivial
  · trivial
  · trivial

/-- A collection removes the generation after `acquire_lease` found it and before the lease is published. -/
theorem not_always_survives_race : ¬ Machine.Always step World.Survives (World.start 1 .empty sampleDirs)
    (.call (.acquire sampleGeneration ⊤) :: steps 0 2 ++ .call (.gc none true) :: steps 1 10 ++ steps 0 2) := by
  intro always
  have survives := always _ [] (List.append_nil _).symm
  have returned : (Machine.run step (World.start 1 .empty sampleDirs) (.call (.acquire sampleGeneration ⊤) :: steps 0 2 ++
      .call (.gc none true) :: steps 1 10 ++ steps 0 2)).callers[0]? =
        some ⟨.acquire sampleGeneration ⊤, .returned ["manifest.json", "project.sfast"] ⊤, false⟩ := rfl
  have keeps := survives _ (List.mem_of_getElem? returned) sampleGeneration ⊤ _ _ rfl rfl rfl (WithTop.coe_lt_top _)
  obtain ⟨d, found, -⟩ := keeps
  cases found

end Workspace

end SimplicioFast
