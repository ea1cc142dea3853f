import SimplicioFast.Lib.Dict
import SimplicioFast.Lib.Machine
import SimplicioFast.Lib.Sha256
import SimplicioFast.Lib.Text

/-!
# The semantic pager

`SemanticPager` keeps pages of bytes in memory, within a budget of bytes and of pages.  `get` returns a
resident page or loads it, and evicts the pages that were touched longest ago to make room.  A page that
is leased cannot be evicted, and an invalidated page is loaded again by the next `get`.

A call that raises may have changed the pager before, so that every method returns its result beside the
pager that it leaves.  The counters of `stats` are left out.  Calls do not overlap here, so that a flight
never outlives its call.
-/

namespace SimplicioFast

structure PageKey where
  repository : PyStr
  generation : PyStr
  overlay : Option PyStr
  segment : PyStr
  logicalRange : PyStr
  schema : PyStr
deriving DecidableEq

/-- `_Page`; the key is the one that it is stored under. -/
structure Page where
  data : Bytes
  digest : PyStr
  lastTouch : ℕ
  leases : ℕ
  invalidated : Bool
deriving DecidableEq

/-- The exceptions of the pager. -/
inductive PagerRaised
  | pagerError (reasonCode message : PyStr)
  | keyError
  | typeError
  | loaderError (message : PyStr)
deriving DecidableEq

structure SemanticPager where
  repository : PyStr
  generation : PyStr
  maxBytes : ℕ
  maxPages : ℕ
  pages : Dict PageKey Page
  clock : ℕ
  bytes : ℤ

/-- The arguments of `get`: the key, what a call of the loader does when one is given, the expected
digest, and whether pages may be evicted. -/
structure PageRequest where
  key : PageKey
  loader : Option (Except PagerRaised Bytes)
  expectedSha256 : Option PyStr := none
  allowEviction : Bool := true

namespace SemanticPager

def SCHEMA : PyStr := "simplicio.fast.semantic-pager/v1"

/-- `hashlib.sha256(data).hexdigest()`. -/
def digestOf (data : Bytes) : PyStr := PyStr.ofChars (Sha256.hexdigest data)

/-- `SemanticPager(repository, generation, max_bytes=…, max_pages=…)`; `none` stands for the
`ValueError`. -/
def new (repository generation : PyStr) (maxBytes maxPages : ℕ) : Option SemanticPager :=
  if maxBytes < 1 ∨ maxPages < 1 then none
  else some ⟨repository, generation, maxBytes, maxPages, .empty, 0, 0⟩

def checkKey (p : SemanticPager) (key : PageKey) : Except PagerRaised Unit :=
  if key.repository ≠ p.repository then
    .error (.pagerError "cross_repo_page" "page belongs to another repository")
  else if key.generation ≠ p.generation then
    .error (.pagerError "stale_generation" "page belongs to another generation")
  else if key.schema ≠ SCHEMA then
    .error (.pagerError "schema_mismatch" "unsupported page schema")
  else .ok ()

/-! ## Evicting -/

/-- Whether the first page is chosen before the second: by last touch, segment and range. -/
def before (e f : PageKey × Page) : Bool :=
  e.2.lastTouch < f.2.lastTouch || e.2.lastTouch = f.2.lastTouch &&
    (e.1.segment < f.1.segment || e.1.segment = f.1.segment &&
      e.1.logicalRange < f.1.logicalRange)

/-- `min(candidates, key=…)`: the first of the least. -/
def least : List (PageKey × Page) → Option (PageKey × Page)
  | [] => none
  | e :: es => some (es.foldl (fun m f => if before f m then f else m) e)

/-- The page that `_evict` removes next. -/
def victim (p : SemanticPager) : Option (PageKey × Page) :=
  least (p.pages.entries.filter fun e => e.2.leases = 0)

def drop (p : SemanticPager) (e : PageKey × Page) : SemanticPager :=
  { p with pages := p.pages.erase e.1, bytes := p.bytes - e.2.data.length }

/-- Whether there is no room for one more page of the given size. -/
def crowded (p : SemanticPager) (required : ℕ) : Bool :=
  (p.maxBytes : ℤ) < p.bytes + required || p.maxPages ≤ p.pages.entries.length

/-- The error of `_evict` when no page can be removed. -/
def exhausted (allowEviction : Bool) : PagerRaised :=
  .pagerError "budget_exhausted" (if allowEviction then "all resident pages are leased"
    else "prefetch would evict resident pages")

/-- The loop of `_evict`, for at most as many rounds as there are pages: after them no page is left. -/
def evictLoop (required : ℕ) (allowEviction : Bool) :
    ℕ → SemanticPager → Except PagerRaised Unit × SemanticPager
  | 0, p => if p.crowded required then (.error (exhausted allowEviction), p) else (.ok (), p)
  | rounds + 1, p =>
    if p.crowded required then
      match if allowEviction then p.victim else none with
      | none => (.error (exhausted allowEviction), p)
      | some e => evictLoop required allowEviction rounds (p.drop e)
    else (.ok (), p)

def evict (p : SemanticPager) (required : ℕ) (allowEviction : Bool) :
    Except PagerRaised Unit × SemanticPager :=
  evictLoop required allowEviction p.pages.entries.length p

/-! ## Getting, leasing and releasing -/

/-- The pager with another page under the key. -/
def store (p : SemanticPager) (key : PageKey) (page : Page) : SemanticPager :=
  { p with pages := p.pages.set key page }

def touch (p : SemanticPager) (key : PageKey) (page : Page) : SemanticPager :=
  { p with clock := p.clock + 1, pages := p.pages.set key { page with lastTouch := p.clock + 1 } }

/-- The pager after the loaded page has been stored. -/
def insert (p : SemanticPager) (key : PageKey) (data : Bytes) : SemanticPager :=
  { p with
    clock := p.clock + 1
    pages := p.pages.set key ⟨data, digestOf data, p.clock + 1, 0, false⟩
    bytes := p.bytes + data.length }

/-- The bytes that the owner of a flight stores: those of the loader, with the expected digest. -/
def loaded (r : PageRequest) : Except PagerRaised Bytes :=
  match r.loader with
  | none => .error (.pagerError "page_not_resident" "a loader is required for a cold page")
  | some (.error x) => .error x
  | some (.ok data) =>
    if r.expectedSha256.any (digestOf data ≠ ·) then
      .error (.pagerError "page_digest_mismatch" "loaded page digest differs from expected")
    else .ok data

/-- The part of `get` that loads a page. -/
def load (p : SemanticPager) (r : PageRequest) : Except PagerRaised Bytes × SemanticPager :=
  match loaded r with
  | .error x => (.error x, p)
  | .ok data =>
    match p.evict data.length r.allowEviction with
    | (.error x, p) => (.error x, p)
    | (.ok _, p) => (.ok data, p.insert r.key data)

/-- The part of `get` that returns a resident page. -/
def hit (p : SemanticPager) (r : PageRequest) (page : Page) :
    Except PagerRaised Bytes × SemanticPager :=
  if r.expectedSha256.any (page.digest ≠ ·) then
    (.error (.pagerError "page_digest_mismatch" "resident page digest differs from expected"),
      p.store r.key { page with invalidated := true })
  else (.ok page.data, p.touch r.key page)

/-- The page under the key, unless it is invalidated. -/
def current (p : SemanticPager) (key : PageKey) : Option Page :=
  (p.pages.get? key).filter fun page => !page.invalidated

def get (p : SemanticPager) (r : PageRequest) : Except PagerRaised Bytes × SemanticPager :=
  match p.checkKey r.key with
  | .error x => (.error x, p)
  | .ok _ =>
    match p.current r.key with
    | some page => p.hit r page
    | none => p.load r

/-- `lease`; evicting is always allowed. -/
def lease (p : SemanticPager) (r : PageRequest) : Except PagerRaised Bytes × SemanticPager :=
  match p.get { r with allowEviction := true } with
  | (.error x, p) => (.error x, p)
  | (.ok data, p) =>
    match p.pages.get? r.key with
    | none => (.error .keyError, p)
    | some page => (.ok data, p.store r.key { page with leases := page.leases + 1 })

def release (p : SemanticPager) (key : PageKey) : Except PagerRaised Unit × SemanticPager :=
  match p.pages.get? key with
  | none => (.error (.pagerError "lease_mismatch" "page lease was not held"), p)
  | some page =>
    if page.leases < 1 then
      (.error (.pagerError "lease_mismatch" "page lease was not held"), p)
    else if page.invalidated = true ∧ page.leases = 1 then (.ok (), p.drop (key, page))
    else (.ok (), p.store key { page with leases := page.leases - 1 })

/-- `invalidate`; it returns how many pages were removed and how many are held. -/
def invalidate (p : SemanticPager) (removed held : ℕ) :
    List PageKey → Except PagerRaised (ℕ × ℕ) × SemanticPager
  | [] => (.ok (removed, held), p)
  | key :: keys =>
    match p.checkKey key with
    | .error x => (.error x, p)
    | .ok _ =>
      match p.pages.get? key with
      | none => p.invalidate removed held keys
      | some page =>
        if page.leases = 0 then (p.drop (key, page)).invalidate (removed + 1) held keys
        else (p.store key { page with invalidated := true }).invalidate removed (held + 1) keys

/-! ## Runs -/

/-- A call of the pager. -/
inductive Call
  | get (r : PageRequest)
  | lease (r : PageRequest)
  | release (key : PageKey)
  | invalidate (keys : List PageKey)

/-- The pager after a call, whether it returns or raises. -/
def step (p : SemanticPager) : Call → SemanticPager
  | .get r => (p.get r).2
  | .lease r => (p.lease r).2
  | .release key => (p.release key).2
  | .invalidate keys => (p.invalidate 0 0 keys).2

end SemanticPager

end SimplicioFast
