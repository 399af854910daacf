import AltKeeper.Page

-- The page of the server: the handlers of its requests, and the jobs they start.
namespace AltKeeper.Web

structure App where
  phone : Option SocketAddr

def RENEW_MIN_DAYS : Int := 3
def MAX_JOB_LINES : Nat := 300

-- Whole seconds from 1970, and none before it.
def seconds (instant : Int) : UInt64 :=
  if instant < 0 then 0 else UInt64.ofNat (Profile.as_secs instant).toNat

def now : Act UInt64 := do return seconds (← ask .system_time)

def push (lines : List Str) (s : Str) : List Str :=
  let lines := lines ++ [s]
  if MAX_JOB_LINES < lines.length then lines.tail else lines

def push_line (s : Str) : Act Unit :=
  ask (.write_inner fun g => { g with job := { g.job with lines := push g.job.lines s } })

section Replies

def json_err (status : Nat) (msg : String) : Act Unit :=
  ask (.respond status (.object [("error".toList, .string msg.toList)]))

def json_ok : Act Unit := ask (.respond 200 (.object [("ok".toList, .bool true)]))

def OK : Nat := 200
def BAD_REQUEST : Nat := 400
def CONFLICT : Nat := 409

def BUSY_MSG : String := "Another operation is already running: please wait for it to finish."

def NOT_WAITING : String := "Apple is not waiting for a code."

def json_nat (n : Nat) : Value := .number (.posInt (UInt64.ofNat n))

def json_days (days : Int) : Value :=
  if days < 0 then .number (.negInt (Int64.ofInt days)) else json_nat days.toNat

def json_text (s : Option Str) : Value := (s.map Value.string).getD .null

def json_flag (b : Option Bool) : Value := (b.map Value.bool).getD .null

def Level.text : Level → String
  | .urgent => "urgent"
  | .soon => "soon"
  | .ok => "ok"

def JobKind.text : JobKind → String
  | .none => ""
  | .renew_all => "renew_all"
  | .renew_due => "renew_due"

def Phase.text : Phase → String
  | .none => ""
  | .working => "working"
  | .done => "done"
  | .failed => "failed"

end Replies

section Check

variable (ext : Ext) (app : App)

def quiet (_ : Str) : Act Unit := return ()

def read_profiles (addr : SocketAddr) :
    Act (Except Fail (SocketAddr × List Profile.PhoneProfile)) := do
  let profiles ← Phone.phone_profiles ext
  ask .drop_link
  match profiles with
  | .error e => return .error e
  | .ok profiles => return .ok (addr, profiles)

-- The part of the check that has a time limit.
def look_at_phone : Act (Except Fail (SocketAddr × List Profile.PhoneProfile)) := do
  match ← Phone.connect_auto ext quiet app.phone with
  | .error e => return .error (.err e)
  | .ok addr => read_profiles ext addr

def look_in_time : Act (Option (Except Fail (SocketAddr × List Profile.PhoneProfile))) := do
  match ← (look_at_phone ext app).interruptible .expired id with
  | some result => return some result
  | none =>
      -- what was being done is dropped, and the link with it
      ask .drop_link
      return none

def checked (at_time : UInt64) (found : Snapshot → Snapshot) : Act Unit :=
  ask (.write_inner fun g =>
    { g with snapshot := found { g.snapshot with checking := false, checked_at := some at_time } })

def unreachable (error detail : Str) (s : Snapshot) : Snapshot :=
  { s with reachable := some false, error := some error, detail := some detail }

-- The rows of the page, none without a team.
def rows_for (team : Option Str) (profiles : List Profile.PhoneProfile) : Act (List AppView) := do
  match team with
  | none => return []
  | some team => app_views ext profiles team

-- A job answers `none` when it panics.
def run_check : Act (Option Unit) := do
  ask (.write_inner fun g => { g with snapshot := { g.snapshot with checking := true } })
  let account ← Apple.read_account ext
  let team := account.bind (·.team_id)
  let result ← look_in_time ext app
  let at_time ← now
  match result with
  | some (.ok (addr, profiles)) =>
      let apps ← rows_for ext team profiles
      checked at_time fun s => { s with
        reachable := some true
        address := some (ext.addr_text addr)
        error := none
        detail := none
        profiles_total := profiles.length
        apps }
      return some ()
  | some (.error (.err e)) =>
      checked at_time (unreachable (friendly_error ext e) (e.take 400))
      return some ()
  | some (.error .panic) => return none
  | none =>
      checked at_time (unreachable (friendly_error ext "non risponde".toList)
        "nessuna risposta entro 45 secondi".toList)
      return some ()

end Check

section Renewal

variable (ext : Ext) (app : App)

def append_lines : List Str → Act Unit
  | [] => return ()
  | line :: lines => do
      ask (.append_renew_log (line ++ "\n".toList))
      append_lines lines

def append_log (lines : List Str) (ok : Bool) : Act Unit := do
  if !(← ask .open_renew_log) then return ()
  let time ← ask .local_time
  ask (.append_renew_log ("=== ".toList ++ time ++ " (interfaccia web)\n".toList))
  append_lines lines
  ask (.append_renew_log ("result: ".toList ++ (if ok then "0\n" else "1\n").toList))

-- What a renewal leaves on the page and in the log.
def renewed (ok : Bool) : Act (Option Unit) := do
  ask (.write_inner fun g => { g with job := { g.job with running := false, ok := some ok } })
  let g ← ask .read_inner
  append_log g.job.lines ok
  run_check ext app

def run_renew (force : Bool) : Act (Option Unit) := do
  match ← cmd_renew ext push_line app.phone false force RENEW_MIN_DAYS with
  | .error .panic => return none
  | .error (.err e) =>
      push_line ("Error: ".toList ++ short_error e)
      renewed ext app false
  | .ok () => renewed ext app true

end Renewal

section Login

variable (ext : Ext)

-- A request for a code, answered from the page or given up after its time.
def ask_code (last_error : Option Str) : Act Unit := do
  ask (.store_last_error last_error)
  let rx ← ask .publish_sender
  ask (.store_asking true)
  let answer ← ask (.wait_answer rx)
  ask (.store_asking false)
  let _ ← ask .take_sender
  ask (.answer_login answer)

def ask_codes : List (Option Str) → Act Unit
  | [] => return ()
  | last_error :: asked => do
      ask_code last_error
      ask_codes asked

def open_session_web (apple_id password : Str) : Act (Except Str Unit) := do
  match ← ask .prepare_state with
  | .error e => return .error e
  | .ok () =>
      let asked ← ask (.begin_login apple_id password)
      ask_codes asked
      Apple.finish_login

def sign_in (apple_id password : Str) (save : Bool) : Act (Except Str Str) := do
  match ← open_session_web apple_id password with
  | .error e => return .error e
  | .ok () =>
      match ← Apple.pick_team none with
      | .error e => return .error e
      | .ok team =>
          let password := if save then password else []
          match ← ask (.save_account { apple_id, password, team_id := some team.team_id }) with
          | .error e => return .error e
          | .ok () => return .ok (team.name.getD team.team_id)

def signed_in (save : Bool) : Except Str Str → LoginView
  | .ok team => {
      phase := .done
      message :=
        if save then "Signed in successfully (team ".toList ++ team ++
          "). The password is saved for renewals.".toList
        else "Signed in successfully (team ".toList ++ team ++
          "), but the password was not saved: automatic renewals cannot run.".toList }
  | .error e => { phase := .failed, message := short_apple_error ext e }

def run_login (apple_id password : Str) (save : Bool) : Act (Option Unit) := do
  let outcome ← sign_in apple_id password save
  ask (.write_inner fun g => { g with
    login := signed_in ext save outcome
    snapshot := { g.snapshot with checked_at := none } })
  return some ()

end Login

section Jobs

variable (ext : Ext) (app : App)

def run_job : Job → Act (Option Unit)
  | .check => run_check ext app
  | .renew force => run_renew ext app force
  | .login apple_id password save => run_login ext apple_id password save

-- What the panic handler leaves.
def after_panic (g : Inner) : Inner := {
  snapshot := { g.snapshot with checking := false }
  job := { g.job with
    running := false
    ok := some false
    lines := g.job.lines ++ ["Errore interno: l'operazione si è interrotta.".toList] }
  login :=
    if g.login.phase = .working then { phase := .failed, message := "Errore interno.".toList }
    else g.login }

-- The thread of a job. The panic, wherever it strikes, is caught; the guard is dropped last.
def job_thread (job : Job) : Act Unit := do
  match ← (run_job ext app job).interruptible .panicked id with
  | some (some ()) => ask .drop_guard
  | _ =>
      ask .unwind
      ask (.write_inner after_panic)
      ask .drop_guard

-- The guard goes to the job, or is dropped when its thread cannot start.
def spawn_job (job : Job) : Act Unit := do
  let _ ← ask (.spawn job)

end Jobs

section Handlers

variable (ext : Ext)

def start_checking : Act Unit :=
  ask (.write_inner fun g => { g with snapshot := { g.snapshot with checking := true } })

-- Whether what is known of the phone is old; the difference of the times wraps.
def stale (pairing : Bool) (s : Snapshot) : Act Bool := do
  if pairing = false ∨ s.checking then return false
  match s.checked_at with
  | none => return true
  | some t => return decide (60 < (← now) - t)

def state_body (time : UInt64) (busy pairing asking : Bool) (account : Option Account)
    (code_error : Option Str) (history : List Value) (g : Inner) : Value :=
  let obj (fields : List (String × Value)) : Value := .object (fields.map fun f => (f.1.toList, f.2))
  obj [
    ("now", .number (.posInt time)),
    ("busy", .bool busy),
    ("pairing", .bool pairing),
    ("account", obj [
      ("present", .bool account.isSome),
      ("apple_id", json_text (account.map (·.apple_id))),
      ("password_saved", .bool (account.any (·.password ≠ []))),
      ("team", .bool (account.any (·.team_id.isSome)))]),
    ("phone", obj [
      ("checked_at", (g.snapshot.checked_at.map fun t => Value.number (.posInt t)).getD .null),
      ("checking", .bool g.snapshot.checking),
      ("reachable", json_flag g.snapshot.reachable),
      ("address", json_text g.snapshot.address),
      ("error", json_text g.snapshot.error),
      ("detail", json_text g.snapshot.detail),
      ("profiles_total", json_nat g.snapshot.profiles_total)]),
    ("apps", .array (g.snapshot.apps.map fun a => obj [
      ("bundle", .string a.bundle),
      ("label", .string a.label),
      ("days", json_days a.days),
      ("expires", .string a.expires),
      ("level", .string (Level.text a.level).toList)])),
    ("job", obj [
      ("kind", .string (JobKind.text g.job.kind).toList),
      ("running", .bool g.job.running),
      ("lines", .array (g.job.lines.map .string)),
      ("ok", json_flag g.job.ok)]),
    ("login", obj [
      ("phase", .string (if asking then "needs_code" else Phase.text g.login.phase).toList),
      ("message", .string g.login.message),
      ("code_error", if asking then json_text code_error else .null)]),
    ("history", .array history)]

-- When what is known is old and nothing else runs, a check starts by itself.
def check_if_stale (pairing : Bool) (s : Snapshot) : Act Unit := do
  if ← stale pairing s then
    if ← ask .try_busy then
      start_checking
      spawn_job .check

def state : Act Unit := do
  let account ← Apple.read_account ext
  let pairing ← ask .pairing_exists
  let g ← ask .read_inner
  check_if_stale pairing g.snapshot
  let history := ((← ask .read_renew_log).map fun t => parse_history ext t 6).getD []
  let g ← ask .read_inner
  let asking ← ask .load_asking
  let code_error ← ask .load_last_error
  let time ← now
  let busy ← ask .load_busy
  ask (.respond OK (state_body time busy pairing asking account code_error history g))

def check : Act Unit := do
  if !(← ask .try_busy) then json_err CONFLICT BUSY_MSG
  else
    start_checking
    spawn_job .check
    json_ok

def start_renewal (force : Bool) : Act Unit := do
  if !(← ask .try_busy) then json_err CONFLICT BUSY_MSG
  else
    ask (.write_inner fun g => { g with job := {
      kind := if force then .renew_all else .renew_due
      running := true
      lines := []
      ok := none } })
    spawn_job (.renew force)
    json_ok

def renew_mode (mode : Str) : Option Bool :=
  if mode = "now".toList then some true else if mode = "due".toList then some false else none

def renew (mode : Str) : Act Unit := do
  match renew_mode mode with
  | none => json_err BAD_REQUEST "Invalid mode"
  | some force =>
      let account ← Apple.read_account ext
      if account.any fun a => a.password ≠ [] && a.team_id.isSome then start_renewal force
      else
        json_err BAD_REQUEST "Sign in with your Apple ID first and choose to save the password."

def start_login (id password : Str) (save : Bool) : Act Unit := do
  if !(← ask .try_busy) then json_err CONFLICT BUSY_MSG
  else
    ask (.write_inner fun g => { g with login := { phase := .working, message := [] } })
    ask (.store_last_error none)
    spawn_job (.login id password save)
    json_ok

def login (apple_id password : Str) (save_password : Bool) : Act Unit := do
  let id := Str.trim apple_id
  if id = [] ∨ 200 < Str.len id ∨ password = [] ∨ 200 < Str.len password then
    json_err BAD_REQUEST "Enter your Apple ID and password."
  else start_login id password save_password

-- Hands the answer to the login that waits for it, if one does.
def answer (answer : TfaAnswer) : Act Bool := do
  match ← ask .take_sender with
  | none => return false
  | some tx => ask (.send_answer tx answer)

def give_answer (a : TfaAnswer) : Act Unit := do
  if ← answer a then json_ok else json_err CONFLICT NOT_WAITING

def login_code (code : Str) : Act Unit := do
  let code := Str.trim code
  if Str.len code ≠ 6 ∨ !code.all Char.isDigit then
    json_err BAD_REQUEST "The code must contain 6 digits."
  else give_answer (.code code)

def login_resend : Act Unit := give_answer .resend

end Handlers

-- The requests that reach a handler.
inductive HttpRequest where
  | state
  | check
  | renew (mode : Str)
  | login (apple_id password : Str) (save_password : Bool)
  | login_code (code : Str)
  | login_resend

def handle (ext : Ext) : HttpRequest → Act Unit
  | .state => state ext
  | .check => check
  | .renew mode => renew ext mode
  | .login apple_id password save => login apple_id password save
  | .login_code code => login_code code
  | .login_resend => login_resend

end AltKeeper.Web
