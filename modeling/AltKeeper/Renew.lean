import AltKeeper.Phone

-- The account, the session with Apple, and the renewal of the profiles that are due.
namespace AltKeeper

namespace Apple

section Accounts

variable (ext : Ext)

def load_account : Act (Except Str Account) := do
  match ← ask .read_account with
  | none => return .error "manca account.json: esegui prima `altkeeper login <apple-id>`".toList
  | some raw =>
      match ext.account raw with
      | .error e => return .error e
      | .ok acc =>
          if acc.password = [] then
            return .error "password non salvata: rifai `altkeeper login` e scegli di salvarla".toList
          else return .ok acc

-- The account without asking for its password.
def read_account : Act (Option Account) := do
  match ← ask .read_account with
  | none => return none
  | some raw =>
      match ext.account raw with
      | .error _ => return none
      | .ok acc => return some acc

end Accounts

section Session

def login_failed (e : Str) : Str := "login Apple ID non riuscito: ".toList ++ e

def session_failed (e : Str) : Str := "sessione sviluppatore non riuscita: ".toList ++ e

-- Nobody is there to give a code: each request for one is answered with an empty code.
def answer_nothing : List (Option Str) → Act Unit
  | [] => return ()
  | _ :: asked => do
      ask (.answer_login (some (.code [])))
      answer_nothing asked

-- The part of the login after its codes.
def finish_login : Act (Except Str Unit) := do
  match ← ask .end_login with
  | .error e => return .error (login_failed e)
  | .ok () =>
      match ← ask .developer_session with
      | .error e => return .error (session_failed e)
      | .ok () => return .ok ()

def open_session (apple_id password : Str) : Act (Except Str Unit) := do
  match ← ask .prepare_state with
  | .error e => return .error e
  | .ok () =>
      let asked ← ask (.begin_login apple_id password)
      answer_nothing asked
      finish_login

-- Without a terminal: the team asked for, or the first one.
def pick_team (wanted : Option Str) : Act (Except Str DeveloperTeam) := do
  match ← ask .list_teams with
  | .error e => return .error e
  | .ok [] => return .error "nessun team sviluppatore su questo Apple ID".toList
  | .ok (first :: teams) =>
      match wanted with
      | none => return .ok first
      | some id =>
          match (first :: teams).find? (·.team_id = id) with
          | none =>
              return .error ("il team ".toList ++ id ++ " non esiste su questo Apple ID".toList)
          | some team => return .ok team

end Session

end Apple

section Renew

variable (ext : Ext) (say : Str → Act Unit)

def say_found (addr : Option SocketAddr) (found : SocketAddr) : Act Unit := do
  if addr ≠ some found then say ("Telefono trovato a ".toList ++ ext.addr_text found)

def open_phone (addr : Option SocketAddr) : Act (Except Str Unit) := do
  match ← Phone.connect_auto ext say addr with
  | .error e => return .error e
  | .ok found =>
      say_found ext say addr found
      return .ok ()

-- The clock is read for a profile that has a date.
def days_left (p : Profile.PhoneProfile) : Act (Option Int) := do
  match p.expires with
  | none => return none
  | some _ => return p.days_left (← ask .system_time)

def expires_text (p : Profile.PhoneProfile) : Str := (p.expires.map ext.date_text).getD "?".toList

def profile_line (p : Profile.PhoneProfile) : Act Str := do
  let days ← days_left p
  return "   ".toList ++ p.name ++ "  [".toList ++ p.uuid ++ "]  scade ".toList ++ expires_text ext p ++
    " (".toList ++ (days.map fun d => (toString d).toList).getD "?".toList ++ " giorni)".toList

def of_team (team_id : Str) (profiles : List Profile.PhoneProfile) : List Profile.PhoneProfile :=
  profiles.filter (·.team_id = some team_id)

-- The bundles to renew, each with the days it has left.
def due_loop (force : Bool) (min_days : Int) :
    List Profile.PhoneProfile → Act (List (Str × Int))
  | [] => return []
  | p :: latest => do
      match p.bundle_id with
      | none =>
          say ("   ".toList ++ p.name ++ ": bundle ID cannot be read, skipping".toList)
          due_loop force min_days latest
      | some bundle =>
          let days := (← days_left p).getD (-1)
          if force = false ∧ min_days < days then
            say ("   ".toList ++ bundle ++ ": expires in ".toList ++ (toString days).toList ++
              " days, no renewal needed".toList)
            due_loop force min_days latest
          else
            let due ← due_loop force min_days latest
            return (bundle, days) :: due

-- Downloads and installs a profile for each bundle due; the result is how many were installed.
def renew_loop (dry_run : Bool) (team : DeveloperTeam) (ids : List AppId) :
    List (Str × Int) → Nat → Act (Except Str Nat)
  | [], done => return .ok done
  | (bundle, days) :: due, done => do
      match ids.find? (·.identifier = bundle) with
      | none =>
          say ("   ".toList ++ bundle ++ ": no matching App ID on Apple, skipping".toList)
          renew_loop dry_run team ids due done
      | some app =>
          if dry_run then
            say ("   ".toList ++ bundle ++ ": expires in ".toList ++ (toString days).toList ++
              " days, WOULD RENEW (dry run)".toList)
            renew_loop dry_run team ids due done
          else
            say ("   ".toList ++ bundle ++ ": expires in ".toList ++ (toString days).toList ++
              " days, downloading a new profile...".toList)
            match ← ask (.download_profile team app) with
            | .error e => return .error e
            | .ok new =>
                say ("      nuovo profilo valido fino al ".toList ++ ext.date_text new.date_expire)
                match ← ask (.install new.encoded_profile) with
                | .error e => return .error e
                | .ok () =>
                    say "      installed on the phone".toList
                    renew_loop dry_run team ids due (done + 1)

def say_profiles : List Profile.PhoneProfile → Act Unit
  | [] => return ()
  | p :: profiles => do
      say (← profile_line ext p)
      say_profiles profiles

def final_check (team_id : Str) : Act (Except Fail Unit) := do
  say "Final check on the phone:".toList
  match ← Phone.phone_profiles ext with
  | .error e => return .error e
  | .ok after =>
      say_profiles ext say (of_team team_id after)
      return .ok ()

-- What is left to do once something is due.
def renew_due (acc : Account) (team_id : Str) (dry_run : Bool) (due : List (Str × Int)) :
    Act (Except Fail Unit) := do
  say "Signing in to Apple...".toList
  match ← Apple.open_session acc.apple_id acc.password with
  | .error e => return .error (.err e)
  | .ok () =>
      match ← Apple.pick_team (some team_id) with
      | .error e => return .error (.err e)
      | .ok team =>
          match ← ask (.list_app_ids team) with
          | .error e => return .error (.err e)
          | .ok ids =>
              match ← renew_loop ext say dry_run team ids due 0 with
              | .error e => return .error (.err e)
              | .ok done =>
                  if dry_run = false ∧ 0 < done then final_check ext say team_id
                  else return .ok ()

-- The part of the renewal that has the link open.
def renew_on_phone (acc : Account) (team_id : Str) (dry_run force : Bool) (min_days : Int) :
    Act (Except Fail Unit) := do
  match ← Phone.phone_profiles ext with
  | .error e => return .error e
  | .ok profiles =>
      let mine := of_team team_id profiles
      say ((toString profiles.length).toList ++ " profiles on the phone, ".toList ++
        (toString mine.length).toList ++ " for team ".toList ++ team_id)
      if mine = [] then return .ok ()
      let due ← due_loop say force min_days (Profile.latest_by_bundle mine)
      if due = [] then
        say "Nothing to renew: skipping Apple sign-in.".toList
        return .ok ()
      renew_due ext say acc team_id dry_run due

-- The link is given back however the renewal ends.
def cmd_renew (addr : Option SocketAddr) (dry_run force : Bool) (min_days : Int) :
    Act (Except Fail Unit) := do
  match ← Apple.load_account ext with
  | .error e => return .error (.err e)
  | .ok acc =>
      match acc.team_id with
      | none => return .error (.err "team not saved: sign in again".toList)
      | some team_id =>
          say "Connecting to the phone...".toList
          match ← open_phone ext say addr with
          | .error e => return .error (.err e)
          | .ok () =>
              let result ← renew_on_phone ext say acc team_id dry_run force min_days
              ask .drop_link
              return result

end Renew

end AltKeeper
