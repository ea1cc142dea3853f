import Mathlib.Algebra.Order.BigOperators.Group.List
import SimplicioFast.Cache.PagerAccounting

/-!
# Failed loads

A `get` that raises leaves the resident pages, their bytes and their leases alone, but for one way to raise: `_evict`
removes the free pages one after another and finds only then that the leased ones leave no room (`keepsResidents_iff`).
Eviction ends with an error exactly when there is no room beside the leased pages (`evict_error_iff`).
-/

namespace SimplicioFast

namespace SemanticPager

variable {p q : SemanticPager} {r : PageRequest} {e : PageKey × Page} {key : PageKey} {page : Page} {required rounds : ℕ}
  {x : PagerRaised} {allowEviction : Bool}

/-- The bytes and the leases of a resident page. -/
def resident (p : SemanticPager) (key : PageKey) : Option (Bytes × ℕ) :=
  (p.pages.get? key).map fun page => (page.data, page.leases)

/-- The same pages are resident, with the same bytes and leases. -/
def SameResidents (p q : SemanticPager) : Prop := ∀ key, p.resident key = q.resident key

/-- A `get` that raises leaves the resident pages alone. -/
def KeepsResidents (p : SemanticPager) (r : PageRequest) : Prop :=
  ∀ x, (p.get r).1 = .error x → SameResidents p (p.get r).2

/-- The bytes of the pages that are not leased. -/
def freeBytes (p : SemanticPager) : ℕ :=
  (p.pages.values.map fun page => if page.leases = 0 then page.data.length else 0).sum

/-- The number of pages that are leased. -/
def leasedPages (p : SemanticPager) : ℕ := (p.pages.values.map fun page => if page.leases = 0 then 0 else 1).sum

/-- There is no room for a page of the given size beside the leased pages. -/
def hopeless (p : SemanticPager) (required : ℕ) : Bool :=
  (p.maxBytes : ℤ) < p.bytes - p.freeBytes + required || p.maxPages ≤ p.leasedPages

/-- The call loads a page, may evict others for it, finds one that is free, and there is no room even without those. -/
def EvictsInVain (p : SemanticPager) (r : PageRequest) : Prop :=
  p.checkKey r.key = .ok () ∧ p.current r.key = none ∧ r.allowEviction = true ∧
    (∃ key page, p.pages.get? key = some page ∧ page.leases = 0) ∧ ∃ data, loaded r = .ok data ∧ p.hopeless data.length = true

/-! ## What is left without the free pages -/

theorem length_eq (p : SemanticPager) : p.leasedPages ≤ p.pages.entries.length := by
  rw [← Dict.length_values]
  exact List.sum_le_sum fun page _ => by split_ifs <;> omega

theorem crowded_of_hopeless (h : p.hopeless required = true) : p.crowded required = true := by
  have fewer := length_eq p
  unfold hopeless at h
  unfold crowded
  rw [Bool.or_eq_true, decide_eq_true_eq, decide_eq_true_eq] at h ⊢
  omega

theorem victim_ne_none (found : p.pages.get? key = some page) (free : page.leases = 0) : p.victim ≠ none := by
  have candidate : (key, page) ∈ p.pages.entries.filter fun e => e.2.leases = 0 :=
    List.mem_filter.2 ⟨(Dict.get?_eq_some_iff _ _ _).1 found, decide_eq_true free⟩
  unfold victim
  cases candidates : p.pages.entries.filter fun e => e.2.leases = 0 with
  | nil =>
    rw [candidates] at candidate
    cases candidate
  | cons f es => exact nofun

theorem hopeless_of_no_victim (none : p.victim = none) : p.hopeless required = p.crowded required := by
  have leased (page : Page) (mem : page ∈ p.pages.values) : page.leases ≠ 0 := by
    obtain ⟨key, found⟩ := (Dict.mem_values_iff _ _).1 mem
    exact fun free => victim_ne_none found free none
  have bytes : p.freeBytes = 0 := by
    unfold freeBytes
    rw [List.map_congr_left fun page mem => if_neg (leased page mem), List.map_const', List.sum_replicate, nsmul_zero]
  have pages : p.leasedPages = p.pages.entries.length := by
    unfold leasedPages
    rw [List.map_congr_left fun page mem => if_neg (leased page mem), Dict.length_values]
  unfold hopeless crowded
  rw [bytes, pages, Nat.cast_zero, sub_zero]

theorem hopeless_drop (found : p.pages.get? e.1 = some e.2) (free : e.2.leases = 0) :
    (p.drop e).hopeless required = p.hopeless required := by
  have bytes := Dict.sum_values_erase p.pages e.1 fun page => if page.leases = 0 then page.data.length else 0
  have pages := Dict.sum_values_erase p.pages e.1 fun page => if page.leases = 0 then 0 else 1
  rw [found, Option.map_some, Option.getD_some, if_pos free] at bytes pages
  have left : (p.drop e).freeBytes + e.2.data.length = p.freeBytes := bytes
  have kept : (p.drop e).leasedPages = p.leasedPages := pages
  have counted : (p.drop e).bytes = p.bytes - e.2.data.length := rfl
  unfold hopeless
  rw [kept, counted, ← left]
  congr 2
  simp only [drop]
  push_cast
  exact propext (by constructor <;> intro h <;> omega)

theorem leases_of_victim_eq (h : p.victim = some e) : e.2.leases = 0 :=
  of_decide_eq_true (List.mem_filter.1 (mem_of_least h)).2

/-! ## The loop -/

theorem evictLoop_error_iff (enough : p.pages.entries.length ≤ rounds) :
    (∃ x, (evictLoop required true rounds p).1 = .error x) ↔ p.hopeless required = true := by
  induction rounds generalizing p with
  | zero =>
    have empty : p.victim = none := by
      unfold victim
      rw [List.length_eq_zero_iff.1 (Nat.le_zero.1 enough)]
      rfl
    rw [hopeless_of_no_victim empty]
    unfold evictLoop
    split_ifs with full
    · exact iff_of_true ⟨_, rfl⟩ full
    · exact iff_of_false (by rintro ⟨x, h⟩; cases h) full
  | succ rounds ih =>
    unfold evictLoop
    rw [if_pos rfl]
    by_cases full : p.crowded required = true
    · rw [if_pos full]
      cases chosen : p.victim with
      | none =>
        rw [hopeless_of_no_victim chosen]
        exact iff_of_true ⟨_, rfl⟩ full
      | some e =>
        have found := get?_of_victim chosen
        have fewer := Dict.length_erase_of_some found
        rw [← hopeless_drop found (leases_of_victim_eq chosen)]
        refine ih ?_
        show (p.pages.erase e.1).entries.length ≤ rounds
        omega
    · rw [if_neg full]
      exact iff_of_false (by rintro ⟨x, h⟩; cases h) fun h => full (crowded_of_hopeless h)

theorem get?_of_evictLoop (found : (evictLoop required allowEviction rounds p).2.pages.get? key = some page) :
    p.pages.get? key = some page := by
  induction rounds generalizing p with
  | zero =>
    unfold evictLoop at found
    split_ifs at found <;> exact found
  | succ rounds ih =>
    unfold evictLoop at found
    split at found
    · split at found
      · exact found
      · have kept := ih found
        rw [drop, Dict.get?_erase] at kept
        split_ifs at kept
        exact kept
    · exact found

theorem evict_of_no_victim (none : (if allowEviction then p.victim else none) = none) :
    (p.evict required allowEviction).2 = p := by
  unfold evict
  cases p.pages.entries.length with
  | zero =>
    unfold evictLoop
    split_ifs <;> rfl
  | succ rounds =>
    unfold evictLoop
    rw [none]
    split_ifs <;> rfl

theorem evict_error_iff : (∃ x, (p.evict required true).1 = .error x) ↔ p.hopeless required = true :=
  evictLoop_error_iff le_rfl

theorem exists_evicted (chosen : p.victim = some e) (full : p.crowded required = true) :
    p.pages.get? e.1 = some e.2 ∧ (p.evict required true).2.pages.get? e.1 = none := by
  have found := get?_of_victim chosen
  refine ⟨found, ?_⟩
  have fewer := Dict.length_erase_of_some found
  unfold evict
  rw [← fewer]
  unfold evictLoop
  rw [if_pos full, if_pos rfl, chosen]
  dsimp only
  cases kept : (evictLoop required true (p.pages.erase e.1).entries.length (p.drop e)).2.pages.get? e.1 with
  | none => rfl
  | some page =>
    have before := get?_of_evictLoop kept
    rw [drop, Dict.get?_erase, if_pos rfl] at before
    cases before

/-! ## The call -/

theorem SameResidents.refl (p : SemanticPager) : SameResidents p p := fun _ => rfl

theorem sameResidents_hit (found : p.current r.key = some page) : SameResidents p (p.hit r page).2 := by
  have stored (page' : Page) (data : page'.data = page.data) (leases : page'.leases = page.leases) (key : PageKey) :
      p.resident key = ((p.pages.set r.key page').get? key).map fun page => (page.data, page.leases) := by
    unfold resident
    rw [Dict.get?_set]
    split_ifs with here
    · rw [here, get?_of_current found, Option.map_some, Option.map_some, data, leases]
    · rfl
  unfold hit
  split_ifs
  · exact stored _ rfl rfl
  · exact stored _ rfl rfl

theorem sameResidents_load (known : p.checkKey r.key = .ok ()) (cold : p.current r.key = none) (vain : ¬ p.EvictsInVain r)
    (raised : (p.load r).1 = .error x) : SameResidents p (p.load r).2 := by
  unfold load at raised ⊢
  cases source : loaded r with
  | error y => exact .refl p
  | ok data =>
    rw [source] at raised
    dsimp only at raised ⊢
    have kept : (∃ x, (p.evict data.length r.allowEviction).1 = .error x) →
        (p.evict data.length r.allowEviction).2 = p := by
      rintro ⟨x, raised⟩
      by_cases allowed : r.allowEviction = true
      · rw [allowed] at raised ⊢
        cases chosen : p.victim with
        | none => exact evict_of_no_victim (by rw [if_pos rfl, chosen])
        | some e =>
          exact (vain ⟨known, cold, allowed, ⟨e.1, e.2, get?_of_victim chosen, leases_of_victim_eq chosen⟩, data, source,
            evict_error_iff.1 ⟨x, raised⟩⟩).elim
      · exact evict_of_no_victim (if_neg allowed)
    cases ran : p.evict data.length r.allowEviction with
    | mk outcome q =>
      rw [ran] at raised kept
      cases outcome with
      | ok u => cases raised
      | error y =>
        have same : q = p := kept ⟨y, rfl⟩
        show SameResidents p q
        rw [same]
        exact .refl p

/-- A `get` that raises leaves the resident pages, their bytes and their leases as they were, exactly when it does not
evict in vain. -/
theorem keepsResidents_iff (p : SemanticPager) (r : PageRequest) : p.KeepsResidents r ↔ ¬ p.EvictsInVain r := by
  unfold KeepsResidents
  constructor
  · rintro keeps ⟨known, cold, allowed, ⟨key, page, found, free⟩, data, source, hopeless⟩
    obtain ⟨e, chosen⟩ := Option.ne_none_iff_exists'.1 (victim_ne_none found free)
    obtain ⟨x, raised⟩ := evict_error_iff.2 hopeless
    obtain ⟨there, gone⟩ := exists_evicted chosen (crowded_of_hopeless hopeless)
    have call : p.get r = (.error x, (p.evict data.length true).2) := by
      unfold get load
      rw [known]
      dsimp only
      rw [cold, source]
      dsimp only
      rw [allowed]
      cases ran : p.evict data.length true with
      | mk outcome q =>
        rw [ran] at raised
        cases raised
        rfl
    have same := keeps x (congrArg Prod.fst call) e.1
    rw [call] at same
    unfold resident at same
    rw [there, gone] at same
    cases same
  · intro vain x raised
    unfold get at raised ⊢
    cases known : p.checkKey r.key with
    | error y => exact .refl p
    | ok u =>
      rw [known] at raised
      dsimp only at raised ⊢
      cases resident : p.current r.key with
      | some page => exact sameResidents_hit resident
      | none =>
        rw [resident] at raised
        exact sameResidents_load known resident vain raised

def largeRequest : PageRequest :=
  { key := { sampleKey with segment := "large" }, loader := some (.ok (List.replicate 9 0)) }

/-- The load of a page that is larger than the budget evicts a free page before it raises. -/
theorem not_keepsResidents_large : ¬ ∀ calls r, (Machine.run step samplePager calls).KeepsResidents r := by
  intro all
  have kept := all [.get (sampleRequest 1)] largeRequest (exhausted true) (by decide +kernel) sampleKey
  revert kept
  decide +kernel

end SemanticPager

end SimplicioFast
