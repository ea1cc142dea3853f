import SimplicioFast.Cache.PagerAccounting
import SimplicioFast.Cache.PagerClients
import SimplicioFast.Lib.Lists

/-!
# Leased pages

A page counts its leases, and a lease that was returned and not released is counted by the page under its key, as
long as three things do not happen (`Safe`): a call of `lease` counts its lease after the page was evicted or
invalidated, `get` stores a page over an invalidated one that is still leased, and `release` is called for a leased
page by a client without a lease.  In a run in which none of them happens every lease can be released, and a run in
which one happens breaks this there (`always_usable_iff`).
-/

namespace SimplicioFast

namespace SemanticPager

variable {p q : SemanticPager} {key key' : PageKey} {page : Page} {r : PageRequest} {e : PageKey × Page}

/-- The leases that the page under the key counts. -/
def leases (p : SemanticPager) (key : PageKey) : ℕ := ((p.pages.get? key).map Page.leases).getD 0

theorem leases_eq (found : p.pages.get? key = some page) : p.leases key = page.leases := by
  rw [leases, found]
  rfl

theorem leases_of_none (none : p.pages.get? key = none) : p.leases key = 0 := by
  rw [leases, none]
  rfl

theorem leases_store (p : SemanticPager) (key key' : PageKey) (page : Page) :
    (p.store key page).leases key' = if key' = key then page.leases else p.leases key' := by
  unfold leases store
  by_cases same : key' = key
  · subst same
    rw [Dict.get?_set_self, if_pos rfl]
    rfl
  · rw [Dict.get?_set_of_ne _ _ same, if_neg same]

theorem leases_insert (p : SemanticPager) (key key' : PageKey) (data : Bytes) :
    (p.insert key data).leases key' = if key' = key then 0 else p.leases key' :=
  leases_store p key key' _

theorem leases_store_of_same {page' : Page} (found : p.pages.get? key = some page) (same : page'.leases = page.leases) :
    (p.store key page').leases key' = p.leases key' := by
  rw [leases_store]
  split
  · next e =>
    rw [e, leases_eq found, same]
  · rfl

theorem leases_drop (p : SemanticPager) (e : PageKey × Page) (key : PageKey) :
    (p.drop e).leases key = if key = e.1 then 0 else p.leases key := by
  unfold leases drop
  rw [Dict.get?_erase]
  split <;> rfl

theorem leases_drop_of_zero (found : p.pages.get? e.1 = some e.2) (zero : e.2.leases = 0) :
    (p.drop e).leases key = p.leases key := by
  rw [leases_drop]
  split
  · next same =>
    rw [same, leases_eq found, zero]
  · rfl

theorem leases_of_victim (h : p.victim = some e) : e.2.leases = 0 :=
  of_decide_eq_true (List.mem_filter.1 (mem_of_least h)).2

theorem leases_evictLoop (required : ℕ) (allowEviction : Bool) (rounds : ℕ) (p : SemanticPager) :
    (evictLoop required allowEviction rounds p).2.leases key = p.leases key := by
  induction rounds generalizing p with
  | zero =>
    unfold evictLoop
    split_ifs <;> rfl
  | succ rounds ih =>
    unfold evictLoop
    split
    · split
      · rfl
      · next e found =>
        have found := (Option.ite_none_right_eq_some.1 found).2
        rw [ih, leases_drop_of_zero (get?_of_victim found) (leases_of_victim found)]
    · rfl

theorem leases_evict (p : SemanticPager) (required : ℕ) (allowEviction : Bool) (key : PageKey) :
    (p.evict required allowEviction).2.leases key = p.leases key :=
  leases_evictLoop required allowEviction _ p

theorem leases_hit (key : PageKey) (found : p.current r.key = some page) : (p.hit r page).2.leases key = p.leases key := by
  have found := get?_of_current found
  unfold hit
  split_ifs
  · exact leases_store_of_same found rfl
  · exact leases_store_of_same (p := p) found rfl

theorem leases_invalidate (p : SemanticPager) (removed held : ℕ) (keys : List PageKey) :
    (p.invalidate removed held keys).2.leases key = p.leases key := by
  induction keys generalizing p removed held with
  | nil => rfl
  | cons k keys ih =>
    rw [invalidate]
    split
    · rfl
    · split
      · exact ih p removed held
      · next page found =>
        split
        · next zero => rw [ih, leases_drop_of_zero (e := (k, page)) found zero]
        · exact (ih _ removed (held + 1)).trans (leases_store_of_same found rfl)

/-- `release` of a leased page takes one lease away. -/
theorem release_of_pos (pos : 0 < p.leases key) : (p.release key).1 = .ok () ∧
    ∀ key', (p.release key).2.leases key' = p.leases key' - if key' = key then 1 else 0 := by
  cases found : p.pages.get? key with
  | none =>
    rw [leases_of_none found] at pos
    cases pos
  | some page =>
    rw [leases_eq found] at pos
    unfold release
    rw [found]
    dsimp only
    rw [if_neg (by omega)]
    split
    · next last =>
      refine ⟨rfl, fun key' => ?_⟩
      rw [leases_drop]
      by_cases same : key' = key
      · subst same
        rw [if_pos rfl, if_pos rfl, leases_eq found, last.2]
      · rw [if_neg same, if_neg same]
        rfl
    · refine ⟨rfl, fun key' => ?_⟩
      rw [leases_store]
      by_cases same : key' = key
      · subst same
        rw [if_pos rfl, if_pos rfl, leases_eq found]
      · rw [if_neg same, if_neg same]
        rfl

/-- `release` of a page that is not leased raises and changes nothing. -/
theorem release_of_zero (zero : p.leases key = 0) : (p.release key).2 = p := by
  unfold release
  split
  · rfl
  · next page found =>
    rw [leases_eq found] at zero
    rw [if_pos (by omega)]

end SemanticPager

namespace PagerClients

variable {w w' : World} {i : ℕ} {c c' : Client} {key : PageKey} {r : PageRequest} {data : Bytes}

/-! ## The law and its condition -/

/-- The leases of the key that were returned and are not released. -/
def World.held (w : World) (key : PageKey) : ℕ := w.clients.countP fun c => c.holds key

/-- What clients of leased pages rely on. -/
structure World.Usable (w : World) : Prop where
  /-- no `lease` failed because its page was gone -/
  obtained : ∀ c ∈ w.clients, c.pc ≠ .gone
  /-- a leased page is resident and counts each of its leases -/
  leased : ∀ key, 0 < w.held key → ∃ page, w.pager.pages.get? key = some page ∧ w.held key ≤ page.leases
  /-- no release of a lease raised -/
  released : ∀ c ∈ w.clients, ∀ x, c.released ≠ some (.error x)

/-- The owner stores its page in the place of a leased one. -/
def World.Replaces (w : World) (r : PageRequest) (data : Bytes) : Prop :=
  (w.pager.evict data.length r.allowEviction).1 = .ok () ∧ 0 < w.pager.leases r.key

/-- The next step of the call leaves the leases of others alone, and finds the page that it leases. -/
def World.SafeCall (w : World) (c : Client) : Prop :=
  match c.pc, c.op with
  | .counting _, .lease r => (w.pager.pages.get? r.key).isSome
  | .storing data, .get r => ¬ w.Replaces r data
  | .storing data, .lease r => ¬ w.Replaces { r with allowEviction := true } data
  | .locking, .release key => w.pager.leases key = 0
  | _, _ => True

def World.Safe (w : World) : Event → Prop
  | .advance i => ∀ c, w.clients[i]? = some c → w.SafeCall c
  | _ => True

def At.returned : At → Bool
  | .done (.ok _) => true
  | _ => false

def Op.isLease : Op → Bool
  | .lease _ => true
  | _ => false

/-- What a safe run keeps: each page counts exactly its leases. -/
structure World.Sound (w : World) : Prop where
  obtained : ∀ c ∈ w.clients, c.pc ≠ .gone
  counted : ∀ key, w.pager.leases key = w.held key
  unreleased : ∀ c ∈ w.clients, c.pc.returned = false → c.released = none
  released : ∀ c ∈ w.clients, ∀ x, c.released ≠ some (.error x)

theorem World.Sound.usable (h : w.Sound) : w.Usable where
  obtained := h.obtained
  leased key pos := by
    cases found : w.pager.pages.get? key with
    | none =>
      rw [← h.counted, SemanticPager.leases_of_none found] at pos
      cases pos
    | some page => exact ⟨page, rfl, by rw [← h.counted, SemanticPager.leases_eq found]⟩
  released := h.released

/-! ## What a step keeps -/

theorem holds_eq_false (busy : c.pc.returned = false ∨ c.op.isLease = false) : c.holds key = false := by
  unfold Client.holds
  split
  · next op pc _ =>
    rcases busy with busy | busy
    · rw [pc] at busy
      cases busy
    · rw [op] at busy
      cases busy
  · rfl

theorem World.Sound.move (h : w.Sound) (hc : w.clients[i]? = some c) {pc : At}
    (clients : w'.clients = w.clients.set i { c with pc := pc })
    (leases : ∀ key, w'.pager.leases key = w.pager.leases key) (now : pc ≠ .gone)
    (before : c.pc.returned = false) (after : pc.returned = false ∨ c.op.isLease = false) : w'.Sound where
  obtained d mem := by
    rw [clients] at mem
    rcases List.mem_or_eq_of_mem_set mem with mem | rfl
    · exact h.obtained d mem
    · exact now
  counted key := by
    have counts := countP_set_add (fun c => c.holds key) { c with pc := pc } hc
    have none : c.holds key = false := holds_eq_false (.inl before)
    have still : ({ c with pc := pc } : Client).holds key = false := holds_eq_false after
    rw [none, still] at counts
    rw [leases, h.counted, held, held, clients]
    simpa using counts.symm
  unreleased d mem returned := by
    rw [clients] at mem
    rcases List.mem_or_eq_of_mem_set mem with mem | rfl
    · exact h.unreleased d mem returned
    · exact h.unreleased c (List.mem_of_getElem? hc) before
  released d mem := by
    rw [clients] at mem
    rcases List.mem_or_eq_of_mem_set mem with mem | rfl
    · exact h.released d mem
    · exact h.released c (List.mem_of_getElem? hc)

theorem World.Sound.goto (h : w.Sound) (hc : w.clients[i]? = some c) {pc : At} (now : pc ≠ .gone)
    (before : c.pc.returned = false) (after : pc.returned = false ∨ c.op.isLease = false) : (w.goto i c pc).Sound :=
  h.move hc rfl (fun _ => rfl) now before after

/-- `get` returns, or goes on to count its lease. -/
theorem World.Sound.arrive (h : w.Sound) (hc : w.clients[i]? = some c) (before : c.pc.returned = false) (data : Bytes)
    (leases : ∀ key, w'.pager.leases key = w.pager.leases key) (clients : w'.clients = w.clients) :
    (w'.arrive i c data).Sound := by
  unfold World.arrive
  split
  · exact h.move hc (by rw [World.goto, clients]) leases (by simp) before (.inl rfl)
  · next other =>
    refine h.move hc (by rw [World.goto, clients]) leases (by simp) before (.inr ?_)
    cases op : c.op with
    | lease r => exact absurd op (other r)
    | get r => rfl
    | release key => rfl
    | invalidate keys => rfl

theorem World.Sound.find (h : w.Sound) (hc : w.clients[i]? = some c) (before : c.pc.returned = false) (r : PageRequest) :
    (w.find i c r).Sound := by
  unfold World.find
  split
  · exact h.goto hc (by simp) before (.inl rfl)
  · split
    · next page found =>
      have leases (key : PageKey) := SemanticPager.leases_hit key found
      split
      · next x p hit =>
        rw [hit] at leases
        exact h.move hc rfl leases (by simp) before (.inl rfl)
      · next data p hit =>
        rw [hit] at leases
        exact h.arrive hc before data leases rfl
    · split
      · exact h.goto hc (by simp) before (.inl rfl)
      · split
        · exact h.move hc rfl (fun _ => rfl) (by simp) before (.inl rfl)
        · exact h.goto hc (by simp) before (.inl rfl)

theorem World.Sound.enter (h : w.Sound) (hc : w.clients[i]? = some c) (at_start : c.pc = .locking) (safe : w.SafeCall c) :
    (w.enter i c).Sound := by
  have before : c.pc.returned = false := by rw [at_start]; rfl
  unfold World.enter
  split
  · exact h.find hc before _
  · exact h.find hc before _
  · next key op =>
    have zero : w.pager.leases key = 0 := by
      unfold World.SafeCall at safe
      rw [at_start, op] at safe
      exact safe
    refine h.move hc rfl (fun key' => ?_) (by simp) before (.inr (by rw [op]; rfl))
    show (w.pager.release key).2.leases key' = _
    rw [SemanticPager.release_of_zero zero]
  · next keys op =>
    exact h.move hc rfl (fun key => SemanticPager.leases_invalidate _ _ _ _) (by simp) before (.inr (by rw [op]; rfl))

theorem World.Sound.store (h : w.Sound) (hc : w.clients[i]? = some c) (before : c.pc.returned = false)
    (safe : ¬ w.Replaces r data) : (w.store i c r data).Sound := by
  have leases := fun key => SemanticPager.leases_evict w.pager data.length r.allowEviction key
  unfold World.store
  split
  · next x p evicted =>
    rw [evicted] at leases
    exact h.move hc rfl leases (by simp) before (.inl rfl)
  · next p evicted =>
    rw [evicted] at leases
    refine h.move hc rfl (fun key => ?_) (by simp) before (.inl rfl)
    show (p.insert r.key data).leases key = _
    rw [SemanticPager.leases_insert]
    split
    · next same =>
      have room : (w.pager.evict data.length r.allowEviction).1 = .ok () := by rw [evicted]
      rw [same]
      by_contra some
      exact safe ⟨room, by omega⟩
    · exact leases key

theorem World.Sound.remove (h : w.Sound) (hc : w.clients[i]? = some c) (before : c.pc.returned = false)
    (outcome : Except PagerRaised Bytes) : (w.remove i c r outcome).Sound := by
  unfold World.remove
  cases outcome with
  | error x => exact h.move hc rfl (fun _ => rfl) (by simp) before (.inl rfl)
  | ok data => exact h.arrive hc before data (fun _ => rfl) rfl

theorem holds_lease (op : c.op = .lease r) (key : PageKey) {out : Returned} (pc : c.pc = .done (.ok out))
    (unreleased : c.released = none) : c.holds key = decide (r.key = key) := by
  unfold Client.holds
  rw [op, pc, unreleased]

theorem World.Sound.count (h : w.Sound) (hc : w.clients[i]? = some c) (before : c.pc.returned = false)
    (op : c.op = .lease r) (safe : (w.pager.pages.get? r.key).isSome) :
    (w.count i c r data).Sound := by
  obtain ⟨page, found⟩ := Option.isSome_iff_exists.1 safe
  have mem := List.mem_of_getElem? hc
  have unreleased := h.unreleased c mem before
  unfold World.count
  rw [found]
  dsimp only
  refine ⟨fun d inside => ?_, fun key => ?_, fun d inside returned => ?_, fun d inside => ?_⟩
  · rcases List.mem_or_eq_of_mem_set inside with inside | rfl
    · exact h.obtained d inside
    · exact At.noConfusion
  · have counts := countP_set_add (fun c => c.holds key) { c with pc := .done (.ok (.data data)) } hc
    have none : c.holds key = false := holds_eq_false (.inl before)
    have now : ({ c with pc := .done (.ok (.data data)) } : Client).holds key = decide (r.key = key) :=
      holds_lease (c := { c with pc := .done (.ok (.data data)) }) op key rfl unreleased
    rw [none, now] at counts
    have old := h.counted key
    unfold World.held at old
    show (w.pager.store r.key _).leases key = (w.clients.set i _).countP _
    rw [SemanticPager.leases_store]
    by_cases same : key = r.key
    · subst same
      rw [SemanticPager.leases_eq found] at old
      simp only [decide_true, if_true, Bool.false_eq_true, if_false] at counts ⊢
      omega
    · simp only [if_neg same, decide_eq_false (Ne.symm same), Bool.false_eq_true, if_false] at counts ⊢
      omega
  · rcases List.mem_or_eq_of_mem_set inside with inside | rfl
    · exact h.unreleased d inside returned
    · exact unreleased
  · rcases List.mem_or_eq_of_mem_set inside with inside | rfl
    · exact h.released d inside
    · exact h.released c mem

theorem returned_of_holds (h : c.holds key = true) : c.pc.returned = true := by
  cases busy : c.pc.returned with
  | true => rfl
  | false =>
    rw [holds_eq_false (.inl busy)] at h
    cases h

/-- The first `close` of a lease releases it. -/
theorem World.Sound.close (h : w.Sound) (hc : w.clients[i]? = some c) : (close w i c).Sound := by
  unfold PagerClients.close
  split
  · next r op =>
    split
    · next holds =>
      have mem := List.mem_of_getElem? hc
      have pos : 0 < w.pager.leases r.key := by
        rw [h.counted]
        exact List.countP_pos_iff.2 ⟨c, mem, holds⟩
      obtain ⟨ok, leases⟩ := SemanticPager.release_of_pos pos
      have free (key : PageKey) : ({ c with released := some (w.pager.release r.key).1 } : Client).holds key = false := by
        unfold Client.holds
        split
        · next none => cases none
        · rfl
      have own (key : PageKey) : c.holds key = decide (key = r.key) := by
        unfold Client.holds at holds ⊢
        rw [op] at holds ⊢
        split at holds
        · next e _ _ =>
          cases e
          exact decide_eq_decide.2 eq_comm
        · cases holds
      refine ⟨fun d inside => ?_, fun key => ?_, fun d inside returned => ?_, fun d inside => ?_⟩
      · rcases List.mem_or_eq_of_mem_set inside with inside | rfl
        · exact h.obtained d inside
        · exact h.obtained c mem
      · have counts := countP_set_add (fun c => c.holds key) { c with released := some (w.pager.release r.key).1 } hc
        have old := h.counted key
        rw [free, own] at counts
        unfold World.held at old
        show (w.pager.release r.key).2.leases key = (w.clients.set i _).countP _
        rw [leases]
        by_cases same : key = r.key
        · simp only [same, decide_true, if_true, Bool.false_eq_true, if_false] at counts old ⊢
          omega
        · simp only [same, decide_false, Bool.false_eq_true, if_false] at counts ⊢
          omega
      · rcases List.mem_or_eq_of_mem_set inside with inside | rfl
        · exact h.unreleased d inside returned
        · have back : c.pc.returned = true := returned_of_holds holds
          rw [back] at returned
          cases returned
      · rcases List.mem_or_eq_of_mem_set inside with inside | rfl
        · exact h.released d inside
        · rw [ok]
          intro x raised
          cases raised
    · exact h
  · exact h

theorem World.Sound.call (h : w.Sound) (op : Op) : (step w (.call op)).Sound where
  obtained c mem := by
    rcases List.mem_append.1 mem with mem | mem
    · exact h.obtained c mem
    · obtain rfl := List.mem_singleton.1 mem
      exact At.noConfusion
  counted key := by
    show w.pager.leases key = (w.clients ++ [_]).countP _
    rw [List.countP_append, h.counted, World.held]
    have none : ([⟨op, .locking, none⟩] : List Client).countP (fun c => c.holds key) = 0 := by
      rw [List.countP_singleton, holds_eq_false (.inl rfl)]
      rfl
    rw [none]
    rfl
  unreleased c mem returned := by
    rcases List.mem_append.1 mem with mem | mem
    · exact h.unreleased c mem returned
    · obtain rfl := List.mem_singleton.1 mem
      rfl
  released c mem := by
    rcases List.mem_append.1 mem with mem | mem
    · exact h.released c mem
    · obtain rfl := List.mem_singleton.1 mem
      intro x raised
      cases raised

theorem World.Sound.advance (h : w.Sound) (hc : w.clients[i]? = some c) (safe : w.SafeCall c) :
    (advance w i c).Sound := by
  unfold PagerClients.advance
  split
  · next pc => exact h.enter hc pc safe
  · next r pc _ =>
    have before : c.pc.returned = false := by rw [pc]; rfl
    split
    · exact h.goto hc (by simp) before (.inl rfl)
    · exact h.goto hc (by simp) before (.inl rfl)
  · next data r pc request =>
    have before : c.pc.returned = false := by rw [pc]; rfl
    refine h.store hc before ?_
    unfold World.SafeCall at safe
    rw [pc] at safe
    cases op : c.op with
    | get r' =>
      rw [op] at safe request
      cases request
      exact safe
    | lease r' =>
      rw [op] at safe request
      cases request
      exact safe
    | release key =>
      rw [op] at request
      cases request
    | invalidate keys =>
      rw [op] at request
      cases request
  · next x r pc _ =>
    have before : c.pc.returned = false := by rw [pc]; rfl
    exact h.move hc rfl (fun _ => rfl) (by simp) before (.inl rfl)
  · next outcome r pc _ =>
    have before : c.pc.returned = false := by rw [pc]; rfl
    exact h.remove hc before outcome
  · next f pc =>
    have before : c.pc.returned = false := by rw [pc]; rfl
    split
    · exact h.goto hc (by simp) before (.inl rfl)
    · exact h
  · next f pc =>
    have before : c.pc.returned = false := by rw [pc]; rfl
    split
    · exact h.goto hc (by simp) before (.inl rfl)
    · exact h.goto hc (by simp) before (.inl rfl)
  · next data pc =>
    have before : c.pc.returned = false := by rw [pc]; rfl
    split
    · next r op =>
      unfold World.SafeCall at safe
      rw [pc, op] at safe
      exact h.count hc before op safe
    · exact h
  · exact h

theorem World.Sound.step (h : w.Sound) {e : Event} (safe : w.Safe e) : (step w e).Sound := by
  cases e with
  | call op => exact h.call op
  | advance i =>
    unfold PagerClients.step
    dsimp only
    split
    · exact h
    · next c hc => exact h.advance hc (safe c hc)
  | close i =>
    unfold PagerClients.step
    dsimp only
    split
    · exact h
    · next c hc => exact h.close hc

theorem sound_start (p : SemanticPager) (empty : p.pages = .empty) : (World.start p).Sound where
  obtained := List.forall_mem_nil _
  counted key := SemanticPager.leases_of_none (by rw [World.start, empty]; rfl)
  unreleased := List.forall_mem_nil _
  released := List.forall_mem_nil _

/-! ## What breaks the law -/

theorem not_usable_of_lt (key : PageKey) (less : w.pager.leases key < w.held key) : ¬ w.Usable := by
  intro usable
  obtain ⟨page, found, counted⟩ := usable.leased key (by omega)
  rw [SemanticPager.leases_eq found] at less
  omega

theorem held_goto (hc : w.clients[i]? = some c) {pc : At} (clients : w'.clients = w.clients.set i { c with pc := pc })
    (before : c.pc.returned = false) (after : pc.returned = false ∨ c.op.isLease = false) : w'.held key = w.held key := by
  have counts := countP_set_add (fun c => c.holds key) { c with pc := pc } hc
  have none : c.holds key = false := holds_eq_false (.inl before)
  have still : ({ c with pc := pc } : Client).holds key = false := holds_eq_false after
  rw [none, still] at counts
  rw [World.held, World.held, clients]
  simpa using counts

theorem not_usable_store (h : w.Sound) (hc : w.clients[i]? = some c) (before : c.pc.returned = false)
    (replaces : w.Replaces r data) : ¬ (w.store i c r data).Usable := by
  obtain ⟨room, leased⟩ := replaces
  unfold World.store
  split
  · next x p evicted =>
    rw [evicted] at room
    cases room
  · next p evicted =>
    refine not_usable_of_lt r.key ?_
    rw [held_goto hc rfl before (.inl rfl), ← h.counted]
    show (p.insert r.key data).leases r.key < _
    rw [SemanticPager.leases_insert, if_pos rfl]
    exact leased

theorem safe_of_usable (h : w.Sound) {e : Event} (usable : (step w e).Usable) : w.Safe e := by
  cases e with
  | call op => trivial
  | close i => trivial
  | advance i =>
    intro c hc
    have stepped : step w (.advance i) = advance w i c := by rw [step, hc]
    rw [stepped] at usable
    have mem := List.mem_of_getElem? hc
    by_contra violated
    unfold World.SafeCall at violated
    split at violated
    · next data r pc op =>
      -- the page is gone when the lease is counted
      have none : w.pager.pages.get? r.key = none := by simpa using violated
      have after : advance w i c = w.goto i c .gone := by
        unfold advance
        rw [pc]
        dsimp only
        rw [op]
        dsimp only
        rw [World.count, none]
      refine usable.obtained { c with pc := .gone } ?_ rfl
      rw [after]
      exact List.mem_of_getElem? (i := i) (by rw [World.goto, getElem?_set_of_some _ hc, if_pos rfl])
    · next data r pc op =>
      have before : c.pc.returned = false := by rw [pc]; rfl
      refine not_usable_store h hc before (not_not.1 violated) ?_
      unfold advance at usable
      rw [pc, op] at usable
      exact usable
    · next data r pc op =>
      have before : c.pc.returned = false := by rw [pc]; rfl
      refine not_usable_store h hc before (not_not.1 violated) ?_
      unfold advance at usable
      rw [pc, op] at usable
      exact usable
    · next key pc op =>
      -- another client's lease is released
      have before : c.pc.returned = false := by rw [pc]; rfl
      unfold advance at usable
      rw [pc] at usable
      dsimp only at usable
      rw [World.enter, op] at usable
      refine not_usable_of_lt key ?_ usable
      rw [held_goto hc rfl before (.inr (by rw [op]; rfl)), ← h.counted]
      show (w.pager.release key).2.leases key < _
      rw [(SemanticPager.release_of_pos (Nat.pos_of_ne_zero violated)).2, if_pos rfl]
      omega
    · exact violated trivial

/-! ## Runs -/

/-- In every state of a run leases are obtained, leased pages are resident and count their leases, and every lease
can be released, exactly when every step of the run is safe. -/
theorem always_usable_iff {repository generation : PyStr} {maxBytes maxPages : ℕ} {p : SemanticPager}
    (h : SemanticPager.new repository generation maxBytes maxPages = some p) (events : List Event) :
    Machine.Always step World.Usable (World.start p) events ↔ Machine.Along step World.Safe (World.start p) events := by
  have empty : p.pages = .empty := by
    unfold SemanticPager.new at h
    split_ifs at h
    cases h
    rfl
  have admitted : Machine.Along step (fun _ _ => True) (World.start p) events :=
    Machine.along_iff.2 fun _ _ _ _ => trivial
  exact Machine.always_iff_along_of_admitted admitted (sound_start p empty) (fun w sound => sound.usable)
    (fun w e sound _ safe => sound.step safe) fun w e sound _ usable => safe_of_usable sound usable

/-- A lease that is counted before its page is invalidated can be released. -/
theorem always_usable_invalidate : Machine.Always step World.Usable (World.start SemanticPager.samplePager)
    [.call (.lease (SemanticPager.sampleRequest 1)), .advance 0, .advance 0, .advance 0, .advance 0, .advance 0,
      .call (.invalidate [SemanticPager.sampleKey]), .advance 1, .close 0] := by
  refine (always_usable_iff (show SemanticPager.new "repo" "g1" 8 2 = some _ from rfl) _).2
    ⟨trivial, ?_, ?_, ?_, ?_, ?_, trivial, ?_, trivial, trivial⟩ <;> rintro c ⟨⟩
  · trivial
  · trivial
  · exact fun replaces => absurd replaces.2 (by decide)
  · trivial
  · exact rfl
  · trivial

/-- The page of a lease is invalidated before the lease is counted. -/
theorem not_always_usable_gone : ¬ Machine.Always step World.Usable (World.start SemanticPager.samplePager)
    [.call (.lease (SemanticPager.sampleRequest 1)), .advance 0, .advance 0, .advance 0, .advance 0,
      .call (.invalidate [SemanticPager.sampleKey]), .advance 1, .advance 0] := by
  intro always
  have usable := always [_, _, _, _, _, _, _, _] [] rfl
  exact usable.obtained ⟨.lease (SemanticPager.sampleRequest 1), .gone, none⟩ List.mem_cons_self rfl

/-- A leased page is invalidated and loaded again: the page in its place counts no lease. -/
example : ¬ Machine.Always step World.Usable (World.start SemanticPager.samplePager)
    [.call (.lease (SemanticPager.sampleRequest 1)), .advance 0, .advance 0, .advance 0, .advance 0, .advance 0,
      .call (.invalidate [SemanticPager.sampleKey]), .advance 1,
      .call (.get (SemanticPager.sampleRequest 2)), .advance 2, .advance 2, .advance 2] := by
  intro always
  have usable := always [_, _, _, _, _, _, _, _, _, _, _, _] [] rfl
  exact not_usable_of_lt SemanticPager.sampleKey (by decide +kernel) usable

end PagerClients

end SimplicioFast
