import SimplicioFast.Cache.Pager

/-!
# The byte counter of the pager

The pager counts the bytes of its pages and keeps the count and the number of pages within the budget
(`Accounted`).  A call keeps the account unless it loads a page over an invalidated one that is still
resident and not empty (`Overwrites`): the new page then takes the place of the old one, whose bytes
stay counted.  So the account is right in every state of a run exactly when no call of the run does that
(`always_accounted_iff`).
-/

namespace SimplicioFast

namespace SemanticPager

variable {p q : SemanticPager} {key : PageKey} {page page' : Page} {r : PageRequest} {data : Bytes}
  {e : PageKey × Page} {required rounds : ℕ} {allowEviction : Bool}

def residentBytes (p : SemanticPager) : ℕ := (p.pages.values.map fun page => page.data.length).sum

/-- The counter is the size of the resident pages, and within the budget. -/
structure Accounted (p : SemanticPager) : Prop where
  counted : p.bytes = p.residentBytes
  nonneg : 0 ≤ p.bytes
  bytes_le : p.bytes ≤ p.maxBytes
  pages_le : p.pages.entries.length ≤ p.maxPages

/-- The call of `get` stores a page over an old one: the key has no current page, the loader returns the
expected bytes, and after room has been made for them an old page that is not empty is still there. -/
def LoadsOver (p : SemanticPager) (r : PageRequest) : Prop :=
  p.checkKey r.key = .ok () ∧ p.current r.key = none ∧ ∃ data, loaded r = .ok data ∧
    ∃ q, p.evict data.length r.allowEviction = (.ok (), q) ∧
      ∃ page, q.pages.get? r.key = some page ∧ page.data ≠ []

/-- The call loads a page over an invalidated one that is still resident. -/
def Overwrites (p : SemanticPager) : Call → Prop
  | .get r => p.LoadsOver r
  | .lease r => p.LoadsOver { r with allowEviction := true }
  | .release _ => False
  | .invalidate _ => False

/-! ## What is counted and not resident -/

/-- The bytes that are counted although no resident page holds them. -/
def drift (p : SemanticPager) : ℤ := p.bytes - p.residentBytes

/-- The pager `q` counts and holds no more than `p`, with the same drift and the same budget. -/
structure Shrinks (p q : SemanticPager) : Prop where
  drift : q.drift = p.drift
  maxBytes : q.maxBytes = p.maxBytes
  maxPages : q.maxPages = p.maxPages
  bytes : q.bytes ≤ p.bytes
  pages : q.pages.entries.length ≤ p.pages.entries.length

theorem Shrinks.refl (p : SemanticPager) : Shrinks p p := ⟨rfl, rfl, rfl, le_refl _, le_refl _⟩

theorem Shrinks.trans {s : SemanticPager} (h : Shrinks p q) (h' : Shrinks q s) : Shrinks p s :=
  ⟨h'.drift.trans h.drift, h'.maxBytes.trans h.maxBytes, h'.maxPages.trans h.maxPages,
    h'.bytes.trans h.bytes, h'.pages.trans h.pages⟩

theorem Accounted.drift_eq (h : p.Accounted) : p.drift = 0 := by
  rw [drift, h.counted, sub_self]

theorem accounted_of_drift (drift : p.drift = 0) (bytes_le : p.bytes ≤ p.maxBytes)
    (pages_le : p.pages.entries.length ≤ p.maxPages) : p.Accounted := by
  have counted : p.bytes = p.residentBytes := by
    rw [SemanticPager.drift] at drift
    omega
  exact ⟨counted, by omega, bytes_le, pages_le⟩

theorem Accounted.shrinks (h : p.Accounted) (less : Shrinks p q) : q.Accounted := by
  refine accounted_of_drift (less.drift.trans h.drift_eq) ?_ ?_
  · rw [less.maxBytes]
    exact less.bytes.trans h.bytes_le
  · rw [less.maxPages]
    exact less.pages.trans h.pages_le

theorem shrinks_store (page' : Page) (found : p.pages.get? key = some page)
    (same : page'.data = page.data) : Shrinks p (p.store key page') where
  drift := by
    have sum := Dict.sum_values_set p.pages key page' fun page => page.data.length
    rw [found, Option.map_some, Option.getD_some, same] at sum
    simp only [drift, residentBytes, store]
    omega
  maxBytes := rfl
  maxPages := rfl
  bytes := le_refl _
  pages := le_of_eq (Dict.length_set_of_mem page' (by rw [found]; rfl))

theorem shrinks_drop (found : p.pages.get? key = some page) : Shrinks p (p.drop (key, page)) where
  drift := by
    have sum := Dict.sum_values_erase p.pages key fun page => page.data.length
    rw [found, Option.map_some, Option.getD_some] at sum
    simp only [drift, residentBytes, drop]
    omega
  maxBytes := rfl
  maxPages := rfl
  bytes := by
    simp only [drop]
    omega
  pages := Dict.length_erase_le _ _

theorem drift_insert (p : SemanticPager) (key : PageKey) (data : Bytes) :
    (p.insert key data).drift =
      p.drift + (((p.pages.get? key).map fun page => page.data.length).getD 0 : ℕ) := by
  have sum := Dict.sum_values_set p.pages key ⟨data, digestOf data, p.clock + 1, 0, false⟩
    fun page => page.data.length
  dsimp only at sum
  simp only [drift, residentBytes, insert]
  omega

/-! ## Evicting -/

theorem mem_of_least {es : List (PageKey × Page)} (h : least es = some e) : e ∈ es := by
  cases es with
  | nil => cases h
  | cons f es =>
    rw [least, Option.some.injEq] at h
    subst h
    have fold (m : PageKey × Page) (fs : List (PageKey × Page)) :
        fs.foldl (fun m f => if before f m then f else m) m ∈ m :: fs := by
      induction fs generalizing m with
      | nil => exact List.mem_singleton_self m
      | cons f fs ih =>
        rw [List.foldl_cons]
        rcases List.mem_cons.1 (ih (if before f m then f else m)) with here | later
        · rw [here]
          split_ifs
          · exact List.mem_cons_of_mem _ List.mem_cons_self
          · exact List.mem_cons_self
        · exact List.mem_cons_of_mem _ (List.mem_cons_of_mem _ later)
    exact fold f es

theorem get?_of_victim (h : p.victim = some e) : p.pages.get? e.1 = some e.2 :=
  (Dict.get?_eq_some_iff _ _ _).2 (List.mem_of_mem_filter (mem_of_least h))

theorem shrinks_evictLoop (required : ℕ) (allowEviction : Bool) (rounds : ℕ) (p : SemanticPager) :
    Shrinks p (evictLoop required allowEviction rounds p).2 := by
  induction rounds generalizing p with
  | zero =>
    unfold evictLoop
    split_ifs <;> exact .refl p
  | succ rounds ih =>
    unfold evictLoop
    split
    · split
      · exact .refl p
      · next e found =>
        have resident := get?_of_victim (Option.ite_none_right_eq_some.1 found).2
        exact (shrinks_drop resident).trans (ih (p.drop e))
    · exact .refl p

theorem shrinks_evict (p : SemanticPager) (required : ℕ) (allowEviction : Bool) :
    Shrinks p (p.evict required allowEviction).2 :=
  shrinks_evictLoop required allowEviction _ p

theorem crowded_evictLoop (h : evictLoop required allowEviction rounds p = (.ok (), q)) :
    q.crowded required = false := by
  induction rounds generalizing p with
  | zero =>
    unfold evictLoop at h
    split at h
    · cases h
    · next room =>
      cases h
      exact Bool.eq_false_iff.2 room
  | succ rounds ih =>
    unfold evictLoop at h
    split at h
    · split at h
      · cases h
      · exact ih h
    · next room =>
      cases h
      exact Bool.eq_false_iff.2 room

theorem crowded_evict (h : p.evict required allowEviction = (.ok (), q)) :
    q.crowded required = false := crowded_evictLoop h

theorem crowded_eq_false (h : p.crowded required = false) :
    p.bytes + required ≤ p.maxBytes ∧ p.pages.entries.length < p.maxPages := by
  simp only [crowded, Bool.or_eq_false_iff, decide_eq_false_iff_not] at h
  omega

/-! ## The steps -/

theorem get?_of_current (h : p.current key = some page) : p.pages.get? key = some page :=
  (Option.filter_eq_some_iff.1 h).1

theorem shrinks_hit (found : p.current r.key = some page) : Shrinks p (p.hit r page).2 := by
  unfold hit
  split_ifs
  · exact shrinks_store _ (get?_of_current found) rfl
  · have same := shrinks_store { page with lastTouch := p.clock + 1 }
      (get?_of_current found) rfl
    exact ⟨same.drift, rfl, rfl, same.bytes, same.pages⟩

theorem Accounted.load (h : p.Accounted) (known : p.checkKey r.key = .ok ())
    (cold : p.current r.key = none) (loadsOver : ¬ p.LoadsOver r) : (p.load r).2.Accounted := by
  unfold SemanticPager.load
  split
  · exact h
  · next data hdata =>
    split
    · next x q evicted =>
      have less := shrinks_evict p data.length r.allowEviction
      rw [evicted] at less
      exact h.shrinks less
    · next q evicted =>
      have less := shrinks_evict p data.length r.allowEviction
      rw [evicted] at less
      have room := crowded_eq_false (crowded_evict evicted)
      have account := h.shrinks less
      have old : ((q.pages.get? r.key).map fun page => page.data.length).getD 0 = 0 := by
        cases found : q.pages.get? r.key with
        | none => rfl
        | some page =>
          by_contra filled
          exact loadsOver ⟨known, cold, data, hdata, q, evicted, page, found, fun nothing => filled (by
            rw [Option.map_some, Option.getD_some, nothing, List.length_nil])⟩
      refine accounted_of_drift ?_ room.1 ?_
      · rw [drift_insert, old, account.drift_eq]
        rfl
      · exact (Dict.length_set_le _ _ _).trans room.2

theorem drift_of_loadsOver (h : p.Accounted) (loadsOver : p.LoadsOver r) : (p.get r).2.drift ≠ 0 := by
  obtain ⟨known, cold, data, hdata, q, evicted, page, found, filled⟩ := loadsOver
  have less := shrinks_evict p data.length r.allowEviction
  rw [evicted] at less
  have length := List.length_pos_iff.2 filled
  have result : (p.get r).2 = q.insert r.key data := by
    simp only [get, known, cold, load, hdata, evicted]
  rw [result, drift_insert, less.drift, h.drift_eq, found, Option.map_some, Option.getD_some]
  omega

theorem Accounted.get (h : p.Accounted) (loadsOver : ¬ p.LoadsOver r) : (p.get r).2.Accounted := by
  unfold SemanticPager.get
  split
  · exact h
  · next known =>
    split
    · next page found => exact h.shrinks (shrinks_hit found)
    · next cold => exact h.load known cold loadsOver

theorem shrinks_lease (p : SemanticPager) (r : PageRequest) :
    Shrinks (p.get { r with allowEviction := true }).2 (p.lease r).2 := by
  unfold lease
  split
  · next x q found =>
    rw [found]
    exact .refl q
  · next data q found =>
    rw [found]
    split
    · exact .refl q
    · next page resident => exact shrinks_store _ resident rfl

theorem shrinks_release (p : SemanticPager) (key : PageKey) : Shrinks p (p.release key).2 := by
  unfold release
  split
  · exact .refl p
  · next page found =>
    split_ifs
    · exact .refl p
    · exact shrinks_drop found
    · exact shrinks_store _ found rfl

theorem shrinks_invalidate (removed held : ℕ) (keys : List PageKey) (p : SemanticPager) :
    Shrinks p (p.invalidate removed held keys).2 := by
  induction keys generalizing p removed held with
  | nil => exact .refl p
  | cons key keys ih =>
    unfold invalidate
    split
    · exact .refl p
    · split
      · exact ih removed held p
      · next page found =>
        split_ifs
        · exact (shrinks_drop found).trans (ih _ _ _)
        · exact (shrinks_store { page with invalidated := true } found rfl).trans (ih _ _ _)

theorem accounted_step_iff (h : p.Accounted) (call : Call) :
    (p.step call).Accounted ↔ ¬ p.Overwrites call := by
  cases call with
  | get r => exact ⟨fun account loadsOver => drift_of_loadsOver h loadsOver account.drift_eq, h.get⟩
  | lease r =>
    have less := shrinks_lease p r
    constructor
    · intro account loadsOver
      exact drift_of_loadsOver h loadsOver (less.drift.symm.trans account.drift_eq)
    · exact fun loadsOver => (h.get loadsOver).shrinks less
  | release key => exact iff_of_true (h.shrinks (shrinks_release p key)) id
  | invalidate keys => exact iff_of_true (h.shrinks (shrinks_invalidate 0 0 keys p)) id

theorem new_accounted {repository generation : PyStr} {maxBytes maxPages : ℕ}
    (h : new repository generation maxBytes maxPages = some p) : p.Accounted := by
  unfold new at h
  split_ifs at h
  cases h
  exact ⟨rfl, le_refl _, Int.natCast_nonneg _, Nat.zero_le _⟩

/-- In a run of a new pager the account is right in every state exactly when no call loads a page over an
invalidated one that is still resident. -/
theorem always_accounted_iff {repository generation : PyStr} {maxBytes maxPages : ℕ}
    (h : new repository generation maxBytes maxPages = some p) (calls : List Call) :
    Machine.Always step Accounted p calls ↔
      Machine.Along step (fun p call => ¬ p.Overwrites call) p calls :=
  Machine.always_iff_along (new_accounted h) fun _ call account => accounted_step_iff account call

def sampleKey : PageKey := ⟨"repo", "g1", none, "seg", "0", SCHEMA⟩

def sampleRequest (b : UInt8) : PageRequest := { key := sampleKey, loader := some (.ok [b]) }

def samplePager : SemanticPager := ⟨"repo", "g1", 8, 2, .empty, 0, 0⟩

/-- A page that is loaded, invalidated and loaded again is accounted for. -/
theorem always_accounted_reload : Machine.Always step Accounted samplePager
    [.get (sampleRequest 1), .invalidate [sampleKey], .get (sampleRequest 2)] := by
  refine (always_accounted_iff (show new "repo" "g1" 8 2 = some _ from rfl) _).2
    ⟨?_, not_false, ?_, trivial⟩
  · rintro ⟨-, -, data, loads, q, evicted, page, found, -⟩
    cases loads
    cases evicted
    cases found
  · rintro ⟨-, -, data, loads, q, evicted, page, found, -⟩
    cases loads
    cases evicted
    cases found

/-- A page that is invalidated while it is leased, and loaded again, stays counted. -/
theorem not_always_accounted_leased : ¬ Machine.Always step Accounted samplePager
    [.lease (sampleRequest 1), .invalidate [sampleKey], .get (sampleRequest 2)] := by
  intro always
  have counted := (always [_, _, _] [] rfl).counted
  revert counted
  decide +kernel

end SemanticPager

end SimplicioFast
