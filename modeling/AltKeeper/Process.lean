import AltKeeper.AltServer
import AltKeeper.Lib.Threads
import AltKeeper.Web

-- The whole process: connections of AltStore, requests to the page and jobs, one step at a
-- time in any order over what they share.
namespace AltKeeper

inductive Tid where
  | conn (n : Nat)
  | http (n : Nat)
  | job (n : Nat)
  deriving DecidableEq

def Tid.is_conn : Tid → Bool
  | .conn _ => true
  | _ => false

-- Who holds what: the lock of the phone operations, the open links, the flag and its guards,
-- and the jobs whose thread exists but has not begun.
structure Resources where
  work : Option Tid := none
  links : List Tid := []
  busy : Bool := false
  guards : List Tid := []
  pending : List (Nat × Job) := []
  jobs : Nat := 0

-- The answers to a login: the sender that waits to be used, and how many there have been.
structure TfaState where
  asking : Bool := false
  last_error : Option Str := none
  sender : Option Nat := none
  senders : Nat := 0

structure World where
  res : Resources := {}
  phone : List Octets := []
  inner : Inner := {}
  tfa : TfaState := {}
  cache_lock : Option Tid := none
  cache : Option Value := none
  -- what the log says of the requests dispatched, the last one first
  requests : List (Tid × Value) := []

namespace Resources

def release (res : Resources) (i : Tid) : Resources :=
  { res with work := if res.work = some i then none else res.work }

def unlink (res : Resources) (i : Tid) : Resources := { res with links := res.links.filter (· ≠ i) }

-- `compare_exchange(false, true)`.
def acquire (res : Resources) (i : Tid) : Resources :=
  { res with busy := true, guards := i :: res.guards }

-- The drop of a guard.
def free (res : Resources) (i : Tid) : Resources :=
  { res with busy := false, guards := res.guards.erase i }

-- The guard of `i` moves into the thread of a new job.
def launch (res : Resources) (i : Tid) (job : Job) : Resources :=
  { res with
    guards := res.guards.map fun j => if j = i then .job res.jobs else j
    pending := res.pending ++ [(res.jobs, job)]
    jobs := res.jobs + 1 }

end Resources

section Phone

-- How the phone's profiles can change; `uuid` is the phone's own reading of a profile.
variable (uuid : Octets → Str)

def Distinct (phone : List Octets) : Prop := (phone.map uuid).Nodup

-- Adds the profile, or fails; takes nothing away.
structure Installed (blob : Octets) (ok : Bool) (phone phone' : List Octets) : Prop where
  kept : ∀ x ∈ phone, x ∈ phone'
  only : ∀ x ∈ phone', x ∈ phone ∨ x = blob
  added : ok → blob ∈ phone'
  distinct : Distinct uuid phone'

-- Takes away the profile with this uuid, or fails; nothing else changes.
structure Removed (u : Str) (ok : Bool) (phone phone' : List Octets) : Prop where
  sublist : phone'.Sublist phone
  others : ∀ x ∈ phone, uuid x ≠ u → x ∈ phone'
  gone : ok → ∀ x ∈ phone', uuid x ≠ u

end Phone

def succeeded {ε α : Type} : Except ε α → Bool
  | .ok _ => true
  | .error _ => false

-- What a command does to the world when it gets this response. A response that is not the
-- world's own to decide is any.
def effect (uuid : Octets → Str) (i : Tid) (w : World) :
    (c : Cmd) → Resp c → World → Prop
  | .log_request req, _, w' => w' = { w with requests := (i, req) :: w.requests }
  | .lock_work, _, w' => w.res.work = none ∧ w' = { w with res := { w.res with work := some i } }
  | .unlock_work, _, w' => w' = { w with res := w.res.release i }
  | .lock_cache, _, w' => w.cache_lock = none ∧ w' = { w with cache_lock := some i }
  | .unlock_cache, _, w' => w' = { w with cache_lock := none }
  | .get_cache, r, w' => r.map Prod.snd = w.cache ∧ w' = w
  | .set_cache v, _, w' => w' = { w with cache := some v }
  | .connect _, .linked, w' => w' = { w with res := { w.res with links := i :: w.res.links } }
  | .drop_link, _, w' => w' = { w with res := w.res.unlink i }
  | .copy_all, .ok raw, w' => (∀ x, x ∈ raw ↔ x ∈ w.phone) ∧ w' = w
  | .install blob, r, w' =>
      ∃ phone, Installed uuid blob (succeeded r) w.phone phone ∧ w' = { w with phone }
  | .remove u, r, w' => ∃ phone, Removed uuid u (succeeded r) w.phone phone ∧ w' = { w with phone }
  | .try_busy, r, w' =>
      r = !w.res.busy ∧ w' = if r then { w with res := w.res.acquire i } else w
  | .load_busy, r, w' => r = w.res.busy ∧ w' = w
  | .drop_guard, _, w' => w' = { w with res := w.res.free i }
  | .spawn job, r, w' =>
      w' = { w with res := if r then w.res.launch i job else w.res.free i }
  | .read_inner, r, w' => r = w.inner ∧ w' = w
  | .write_inner f, _, w' => w' = { w with inner := f w.inner }
  | .load_asking, r, w' => r = w.tfa.asking ∧ w' = w
  | .store_asking asking, _, w' => w' = { w with tfa := { w.tfa with asking } }
  | .load_last_error, r, w' => r = w.tfa.last_error ∧ w' = w
  | .store_last_error last_error, _, w' => w' = { w with tfa := { w.tfa with last_error } }
  | .publish_sender, r, w' =>
      r = w.tfa.senders ∧
        w' = { w with tfa := { w.tfa with sender := some r, senders := r + 1 } }
  | .take_sender, r, w' => r = w.tfa.sender ∧ w' = { w with tfa := { w.tfa with sender := none } }
  | .unwind, _, w' =>
      w' = { w with
        res := (w.res.unlink i).release i
        cache_lock := if w.cache_lock = some i then none else w.cache_lock }
  | _, _, w' => w' = w

section Threads

variable (ext : Ext)

-- A panic ends the thread of a connection; what it held is given back.
def connection_thread (ctx : AltServer.Ctx) (fuel : Nat) : Act Unit := do
  let _ ← (AltServer.handle_connection ext ctx fuel).interruptible .panicked id
  ask .unwind

-- A new connection, a new request to the page, or a job whose thread begins.
def launched (phone : Option SocketAddr) (i : Tid) (w : World) (p : Act Unit) (w' : World) : Prop :=
  match i with
  | .conn _ => ∃ fuel, p = connection_thread ext ⟨phone⟩ fuel ∧ w' = w
  | .http _ => ∃ req, p = Web.handle ext req ∧ w' = w
  | .job n => ∃ job, (n, job) ∈ w.res.pending ∧ p = Web.job_thread ext ⟨phone⟩ job ∧
      w' = { w with res := { w.res with pending := w.res.pending.filter (·.1 ≠ n) } }

-- `phone` is the address given on the command line.
def process (uuid : Octets → Str) (phone : Option SocketAddr) : Threads.System Tid World Resp where
  step := effect uuid
  start := launched ext phone

end Threads

-- The process before its first request, with these profiles on the phone.
def initial (phone : List Octets) : Threads.Config Tid World Resp where
  world := { phone }
  thread _ := .ret ()

abbrev Run (ext : Ext) (uuid : Octets → Str) (addr : Option SocketAddr) (phone : List Octets) :=
  Threads.Run (process ext uuid addr) (initial phone)

end AltKeeper
