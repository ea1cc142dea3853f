import Mathlib.Data.List.Count
import SimplicioFast.Cache.Pager

/-!
# Clients of the pager

Several clients call one `SemanticPager`.  What a call does while it holds the lock is one step here; between these
blocks other calls take theirs.  `get` takes the lock to find the page, the owner of a flight once more to store what
it loaded and once more to remove the flight, and `lease` takes it again to count the lease after its `get` returned.

A lease is released when its `close` is called the first time; `release` may be called without a lease as well.
-/

namespace SimplicioFast

/-- `_Flight`. -/
structure PagerFlight where
  event : Bool := false
  error : Option PagerRaised := none

namespace PagerClients

/-- A call of the pager. -/
inductive Op
  | get (r : PageRequest)
  | lease (r : PageRequest)
  | release (key : PageKey)
  | invalidate (keys : List PageKey)

/-- What a call returns. -/
inductive Returned
  | data (data : Bytes)
  | invalidated (removed held : ℕ)
  | nothing

/-- Where a call is. -/
inductive At
  /-- before its first block -/
  | locking
  /-- an owner in its loader, before it stores the page, before it notes its error, and before it removes the flight -/
  | loading
  | storing (data : Bytes)
  | failing (error : PagerRaised)
  | removing (outcome : Except PagerRaised Bytes)
  /-- a waiter for the event of the flight, and before it reads the error -/
  | waiting (flight : ℕ)
  | reading (flight : ℕ)
  /-- `lease` before it counts the lease, and after the page was gone: `KeyError` -/
  | counting (data : Bytes)
  | gone
  | done (outcome : Except PagerRaised Returned)

/-- A call, and for a lease that was released what `release` did. -/
structure Client where
  op : Op
  pc : At
  released : Option (Except PagerRaised Unit) := none

/-- The pager, its flights and those that were made, each found at the number of the call that made it, and the
calls. -/
structure World where
  pager : SemanticPager
  flights : Dict PageKey ℕ
  heap : ℕ → PagerFlight
  clients : List Client

/-- The world in which nothing was called. -/
def World.start (pager : SemanticPager) : World := ⟨pager, .empty, fun _ => {}, []⟩

namespace World

variable (w : World) (i : ℕ) (c : Client)

def goto (pc : At) : World := { w with clients := w.clients.set i { c with pc := pc } }

def withPager (p : SemanticPager) : World := { w with pager := p }

/-- `get` returns: the call ends, or goes on to count its lease. -/
def arrive (data : Bytes) : World :=
  match c.op with
  | .lease _ => w.goto i c (.counting data)
  | _ => w.goto i c (.done (.ok (.data data)))

/-- The block of `get` that finds the page, or the flight that loads it, or makes one; the key is checked before. -/
def find (r : PageRequest) : World :=
  match w.pager.checkKey r.key with
  | .error x => w.goto i c (.done (.error x))
  | .ok _ =>
    match w.pager.current r.key with
    | some page =>
      match w.pager.hit r page with
      | (.error x, p) => (w.withPager p).goto i c (.done (.error x))
      | (.ok data, p) => (w.withPager p).arrive i c data
    | none =>
      if r.loader = none then
        w.goto i c (.done (.error (.pagerError "page_not_resident" "a loader is required for a cold page")))
      else
        match w.flights.get? r.key with
        | none =>
          let made : World := { w with flights := w.flights.set r.key i, heap := Function.update w.heap i {} }
          made.goto i c .loading
        | some f => w.goto i c (.waiting f)

def enter : World :=
  match c.op with
  | .get r => w.find i c r
  | .lease r => w.find i c { r with allowEviction := true }
  | .release key =>
    (w.withPager (w.pager.release key).2).goto i c (.done ((w.pager.release key).1.map fun _ => .nothing))
  | .invalidate keys =>
    (w.withPager (w.pager.invalidate 0 0 keys).2).goto i c
      (.done ((w.pager.invalidate 0 0 keys).1.map fun n => .invalidated n.1 n.2))

/-- The block in which an owner stores the page. -/
def store (r : PageRequest) (data : Bytes) : World :=
  match w.pager.evict data.length r.allowEviction with
  | (.error x, p) => (w.withPager p).goto i c (.failing x)
  | (.ok _, p) => (w.withPager (p.insert r.key data)).goto i c (.removing (.ok data))

/-- The block in which an owner removes its flight and sets the event. -/
def remove (r : PageRequest) (outcome : Except PagerRaised Bytes) : World :=
  let removed : World := { w with
    flights := w.flights.erase r.key
    heap := Function.update w.heap i { w.heap i with event := true } }
  match outcome with
  | .error x => removed.goto i c (.done (.error x))
  | .ok data => removed.arrive i c data

/-- The block in which `lease` counts the lease. -/
def count (r : PageRequest) (data : Bytes) : World :=
  match w.pager.pages.get? r.key with
  | none => w.goto i c .gone
  | some page =>
    (w.withPager (w.pager.store r.key { page with leases := page.leases + 1 })).goto i c (.done (.ok (.data data)))

end World

/-- The request of a `get`, also of the one that `lease` makes. -/
def Op.request : Op → Option PageRequest
  | .get r => some r
  | .lease r => some { r with allowEviction := true }
  | .release _ | .invalidate _ => none

def advance (w : World) (i : ℕ) (c : Client) : World :=
  match c.pc, c.op.request with
  | .locking, _ => w.enter i c
  | .loading, some r =>
    match SemanticPager.loaded r with
    | .error x => w.goto i c (.failing x)
    | .ok data => w.goto i c (.storing data)
  | .storing data, some r => w.store i c r data
  | .failing x, some _ =>
    let failed : World := { w with heap := Function.update w.heap i { w.heap i with error := some x } }
    failed.goto i c (.removing (.error x))
  | .removing outcome, some r => w.remove i c r outcome
  | .waiting f, _ => if (w.heap f).event then w.goto i c (.reading f) else w
  | .reading f, _ =>
    match (w.heap f).error with
    | some x => w.goto i c (.done (.error x))
    | none => w.goto i c .locking
  | .counting data, _ =>
    match c.op with
    | .lease r => w.count i c r data
    | _ => w
  | _, _ => w

/-- The lease that a call returned and that is not released yet. -/
def Client.holds (c : Client) (key : PageKey) : Bool :=
  match c.op, c.pc, c.released with
  | .lease r, .done (.ok _), none => r.key = key
  | _, _, _ => false

/-- `close` of the lease that the call returned; only the first one releases it. -/
def close (w : World) (i : ℕ) (c : Client) : World :=
  match c.op with
  | .lease r =>
    if c.holds r.key then
      { w with
        pager := (w.pager.release r.key).2
        clients := w.clients.set i { c with released := some (w.pager.release r.key).1 } }
    else w
  | _ => w

/-- What happens next: a call begins, takes its next step, or its lease is closed. -/
inductive Event
  | call (op : Op)
  | advance (i : ℕ)
  | close (i : ℕ)

def step (w : World) : Event → World
  | .call op => { w with clients := w.clients ++ [⟨op, .locking, none⟩] }
  | .advance i =>
    match w.clients[i]? with
    | none => w
    | some c => advance w i c
  | .close i =>
    match w.clients[i]? with
    | none => w
    | some c => close w i c

end PagerClients

end SimplicioFast
