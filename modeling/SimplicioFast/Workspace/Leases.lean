import Mathlib.Algebra.Order.Ring.Rat
import SimplicioFast.Lib.Dict
import SimplicioFast.Lib.Machine
import SimplicioFast.Lib.Text

/-!
# Leases of workspace generations

A `WorkspaceStore` keeps each base generation in a directory and each lease in a file of its own.  `acquire_lease`
finds the manifest of the generation and then publishes a lease file, `release_lease` removes the file, and `gc`
reads the lease files and removes the directories of the generations that no unexpired lease names.

The calls run in processes that share nothing but the files and the clock, so each file access is a step.  A step may
fail with an `OSError`.  A lease file appears at once, since it is written under another name and renamed.
-/

namespace SimplicioFast

namespace Workspace

/-- A point of time that may never come: `expires_at` may be infinite. -/
abbrev Expiry := WithTop ℚ

/-- What `gc` reads from a lease file: a lease, something for which it catches the exception, or something for which
it does not. -/
inductive LeaseFile
  | lease (generation : PyStr) (expiresAt : Expiry)
  | caught
  | uncaught
deriving DecidableEq

/-- The name of a lease file: one that was there before, or the one that a call gave it (`uuid.uuid4().hex`). -/
inductive LeaseName
  | foreign (name : PyStr)
  | own (call : ℕ)
deriving DecidableEq

/-- The directory of a generation: its files, and whether its `manifest.json` is one of this generation. -/
structure Directory where
  files : List PyStr
  manifestValid : Bool
deriving DecidableEq

/-- A call of the store. -/
inductive Op
  | acquire (generation : PyStr) (ttl : Expiry)
  | release (lease : LeaseName)
  | gc (now : Option ℚ) (apply : Bool)

/-- The variables of a call of `gc`; `listed` are the lease files that it found, `todo` those that are left to read,
and `entries` the directories that are left to test. -/
structure Collection where
  now : ℚ
  listed : List LeaseName := []
  todo : List LeaseName := []
  protectedIds : List PyStr := []
  entries : List PyStr := []
  candidates : List PyStr := []
  removed : List PyStr := []

/-- Where a call is. -/
inductive At
  /-- `acquire_lease` before it asks for the status of the manifest, reads it, reads the clock and publishes the
  lease, and after it returned; `seen` are the files of the generation when its manifest was found -/
  | checking
  | reading
  | found (seen : List PyStr)
  | publishing (seen : List PyStr) (expiresAt : Expiry)
  | returned (seen : List PyStr) (expiresAt : Expiry)
  /-- `release_lease` before it asks whether the file exists, and before it removes it -/
  | existing
  | unlinking
  /-- `gc` before it reads the clock, lists the lease files, reads the next one and removes one -/
  | starting
  | listing (c : Collection)
  | scanning (c : Collection)
  | dropping (name : LeaseName) (c : Collection)
  /-- `gc` before it lists the directories, tests the next one, starts to remove the next one, and removes its next
  file or the empty directory itself -/
  | browsing (c : Collection)
  | testing (c : Collection)
  | clearing (c : Collection)
  | deleting (files : List PyStr) (c : Collection)
  /-- a call of `release_lease` or `gc` that returned, and a call that raised -/
  | done
  | raised

/-- A call; the lease that it returned is released once a release of it was called. -/
structure Caller where
  op : Op
  pc : At
  released : Bool := false

/-- The clock, the lease files, the directories, and the calls. -/
structure World where
  now : ℚ
  foreign : Dict PyStr LeaseFile
  own : Dict ℕ LeaseFile
  dirs : Dict PyStr Directory
  callers : List Caller

/-- The world in which nothing was called. -/
def World.start (now : ℚ) (foreign : Dict PyStr LeaseFile) (dirs : Dict PyStr Directory) : World :=
  ⟨now, foreign, .empty, dirs, []⟩

namespace World

variable (w : World) (i : ℕ) (c : Caller)

def goto (pc : At) : World := { w with callers := w.callers.set i { c with pc := pc } }

def leaseNames : List LeaseName := w.foreign.keys.map .foreign ++ w.own.keys.map .own

def leaseFile? : LeaseName → Option LeaseFile
  | .foreign name => w.foreign.get? name
  | .own call => w.own.get? call

def unlink : LeaseName → World
  | .foreign name => { w with foreign := w.foreign.erase name }
  | .own call => { w with own := w.own.erase call }

/-- The directory of the generation, when it holds a manifest. -/
def withManifest (generation : PyStr) : Option Directory :=
  (w.dirs.get? generation).filter fun d => d.files.contains "manifest.json"

/-! ## `acquire_lease` -/

/-- `path.stat()` of the manifest, for a generation with a proper name; `cached` says whether the manifest was read
before and has the same status as then, in which case it is not read again. -/
def check (generation : PyStr) (fails cached : Bool) : World :=
  if generation.isSha256 then
    match if fails then none else w.withManifest generation with
    | some d => w.goto i c (if cached && d.manifestValid then .found d.files else .reading)
    | none => w.goto i c .reading
  else w.goto i c .raised

def read (generation : PyStr) (fails : Bool) : World :=
  match if fails then none else w.withManifest generation with
  | some d => w.goto i c (if d.manifestValid then .found d.files else .raised)
  | none => w.goto i c .raised

def publish (generation : PyStr) (seen : List PyStr) (expiresAt : Expiry) (fails : Bool) : World :=
  if fails then w.goto i c .raised
  else { w with own := w.own.set i (.lease generation expiresAt) }.goto i c (.returned seen expiresAt)

/-! ## `gc` -/

/-- `now or time.time()`. -/
def timeOf (now : Option ℚ) : ℚ :=
  match now with
  | none => w.now
  | some t => if t = 0 then w.now else t

/-- The next lease file is read.  Whatever cannot be read is removed, like an expired lease, when `apply` holds. -/
def scan (g : Collection) (apply fails : Bool) : World :=
  match g.todo with
  | [] => w.goto i c (.browsing g)
  | name :: todo =>
    let rest := { g with todo := todo }
    let discard := if apply then At.dropping name rest else .scanning rest
    match if fails then none else w.leaseFile? name with
    | none => w.goto i c discard
    | some .caught => w.goto i c discard
    | some .uncaught => w.goto i c .raised
    | some (.lease generation expiresAt) =>
      if (g.now : Expiry) < expiresAt then
        w.goto i c (.scanning { rest with protectedIds := g.protectedIds ++ [generation] })
      else w.goto i c discard

def test (g : Collection) (apply : Bool) : World :=
  match g.entries with
  | [] => w.goto i c (if apply then .clearing g else .done)
  | name :: entries =>
    let chosen := (w.dirs.get? name).isSome && !g.protectedIds.contains name
    w.goto i c (.testing { g with entries := entries
                                  candidates := if chosen then g.candidates ++ [name] else g.candidates })

/-- `shutil.rmtree` of the next candidate lists its files. -/
def clear (g : Collection) : World :=
  match g.candidates with
  | [] => w.goto i c .done
  | name :: _ =>
    match w.dirs.get? name with
    | none => w.goto i c .raised
    | some d => w.goto i c (.deleting d.files g)

/-- `shutil.rmtree` removes the next file of the candidate, or its empty directory.  A file that is gone already is
an error or not, depending on the version of Python. -/
def delete (files : List PyStr) (g : Collection) (fails : Bool) : World :=
  match g.candidates with
  | [] => w
  | name :: candidates =>
    match files, w.dirs.get? name with
    | [], some d =>
      if fails || !d.files.isEmpty then w.goto i c .raised
      else { w with dirs := w.dirs.erase name }.goto i c
        (.clearing { g with candidates := candidates, removed := g.removed ++ [name] })
    | [], none => w.goto i c .raised
    | file :: files, some d =>
      if fails then w.goto i c .raised
      else { w with dirs := w.dirs.set name { d with files := d.files.erase file } }.goto i c (.deleting files g)
    | _ :: files, none => w.goto i c (if fails then .raised else .deleting files g)

end World

/-! ## Steps -/

/-- The next step of a call; `fails` says whether the file access raises an `OSError`. -/
def advance (w : World) (i : ℕ) (c : Caller) (fails cached : Bool) : World :=
  match c.op, c.pc with
  | .acquire generation _, .checking => w.check i c generation fails cached
  | .acquire generation _, .reading => w.read i c generation fails
  | .acquire _ ttl, .found seen => w.goto i c (.publishing seen ((w.now : Expiry) + ttl))
  | .acquire generation _, .publishing seen expiresAt => w.publish i c generation seen expiresAt fails
  | .release lease, .existing =>
    w.goto i c (if fails then .raised else if (w.leaseFile? lease).isSome then .unlinking else .done)
  | .release lease, .unlinking =>
    if fails || (w.leaseFile? lease).isNone then w.goto i c .raised else (w.unlink lease).goto i c .done
  | .gc now _, .starting => w.goto i c (.listing { now := w.timeOf now })
  | .gc _ _, .listing g =>
    w.goto i c (if fails then .raised else .scanning { g with listed := w.leaseNames, todo := w.leaseNames })
  | .gc _ apply, .scanning g => w.scan i c g apply fails
  | .gc _ true, .dropping name g => if fails then w.goto i c .raised else (w.unlink name).goto i c (.scanning g)
  | .gc _ _, .browsing g => w.goto i c (if fails then .raised else .testing { g with entries := w.dirs.keys })
  | .gc _ apply, .testing g => if fails then w.goto i c .raised else w.test i c g apply
  | .gc _ true, .clearing g => if fails then w.goto i c .raised else w.clear i c g
  | .gc _ true, .deleting files g => w.delete i c files g fails
  | _, _ => w

def Op.first : Op → At
  | .acquire _ _ => .checking
  | .release _ => .existing
  | .gc _ _ => .starting

def At.isReturned : At → Bool
  | .returned _ _ => true
  | _ => false

/-- A call of the store begins.  Only a lease that was returned is known, so that no other can be released. -/
def call (w : World) (op : Op) : World :=
  match op with
  | .release (.own k) =>
    match w.callers[k]? with
    | some c =>
      if c.pc.isReturned then
        { w with callers := w.callers.set k { c with released := true } ++ [⟨op, op.first, false⟩] }
      else w
    | none => w
  | _ => { w with callers := w.callers ++ [⟨op, op.first, false⟩] }

/-- What happens next: a call begins, the clock goes on, or a call takes its next step. -/
inductive Event
  | call (op : Op)
  | tick (elapsed : ℚ)
  | advance (i : ℕ) (fails cached : Bool)

def step (w : World) : Event → World
  | .call op => call w op
  | .tick elapsed => { w with now := w.now + max 0 elapsed }
  | .advance i fails cached =>
    match w.callers[i]? with
    | none => w
    | some c => advance w i c fails cached

end Workspace

end SimplicioFast
