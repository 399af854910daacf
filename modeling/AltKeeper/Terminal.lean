import AltKeeper.Developer.Renewal

-- The commands that a user of the terminal signs in with: `login`, which saves the account, and `apps`.
namespace AltKeeper.Terminal

open Developer (DeveloperSession list_app_ids list_teams)
open GrandSlam (TrustedNumber TwoFactorCallbackParams TwoFactorCallbackResponse)
open Prog (Both inner outer)

section Calls

inductive Call where
  | print (text : Str)
  | println (line : Str)
  -- a line of the input, with its end; nothing when it cannot be read
  | read_line
  | prompt_password (prompt : Str)
  | prepare_state
  | read_account
  | save_account (acc : Account)

@[reducible] def Answer : Call → Type
  | .read_line => Str
  | .prompt_password _ => Except Str Str
  | .prepare_state => Except Str Unit
  | .read_account => Option Str
  | .save_account _ => Except Str Unit
  | _ => Unit

-- What is done at the terminal.
abbrev Talk := Prog Answer

-- The same, and calls of a session with Apple.
abbrev Session := Prog (Both GrandSlam.Answer Answer)

def perform (c : Call) : Talk (Answer c) := Prog.perform c

end Calls

section Code

-- Where the code went.
def destination (params : TwoFactorCallbackParams) : Str :=
  if params.sms then
    match params.numbers.find? fun n => some n.id = params.selected_number_id with
    | some n => n.number_with_dial_code
    | none => "il tuo telefono".toList
  else "i tuoi dispositivi".toList

def print_numbers : List TrustedNumber → Talk Unit
  | [] => return ()
  | n :: numbers => do
      perform (.println ("  ID ".toList ++ (toString n.id.toNat).toList ++ ": ".toList ++
        n.number_with_dial_code))
      print_numbers numbers

-- The number after a `p`.
def number_of : Str → Option UInt32
  | 'p' :: s => (Str.parse_unsigned (2 ^ 32 - 1) s).map UInt32.ofNat
  | _ => none

-- What a line that was typed asks for.
def response_of (unknown : Bool) (line : Str) : TwoFactorCallbackResponse :=
  let code := Str.trim line
  match number_of code with
  | some id => .send_sms id
  | none =>
      if code = "d".toList then .send_to_devices
      else if code = "r".toList ∧ unknown = false then .resend_code
      else .submit_code code

def get_2fa_code (interactive : Bool) (params : TwoFactorCallbackParams) :
    Talk TwoFactorCallbackResponse := do
  if !interactive then return .submit_code []
  if params.unknown then
    perform (.println "L'ultimo metodo 2FA non ha funzionato, prova un altro.".toList)
  else
    perform (.println ("Inserisci il codice a 6 cifre inviato a ".toList ++ destination params ++
      ":".toList))
  perform (.println "(d = invia ai dispositivi, r = reinvia, p<id> = SMS al numero <id>)".toList)
  print_numbers (params.numbers.filter fun n => some n.id ≠ params.selected_number_id)
  return response_of params.unknown (← perform .read_line)

end Code

section Team

def name_of (team : DeveloperTeam) : Str := team.name.getD "<senza nome>".toList

-- The teams, each after its number.
def print_choices : Nat → List DeveloperTeam → Talk Unit
  | _, [] => return ()
  | i, t :: teams => do
      perform (.println ("  ".toList ++ (toString (i + 1)).toList ++ ": ".toList ++ name_of t ++
        " (".toList ++ t.team_id ++ ")".toList))
      print_choices (i + 1) teams

-- `n.wrapping_sub(1)`.
def before_one (n : Nat) : Nat := (n + (2 ^ 64 - 1)) % 2 ^ 64

def choose_team (teams : List DeveloperTeam) : Talk (Except Str DeveloperTeam) := do
  perform (.println "Team disponibili:".toList)
  print_choices 0 teams
  perform (.print "Scegli il numero: ".toList)
  let s ← perform .read_line
  match Str.parse_unsigned (2 ^ 64 - 1) (Str.trim s) with
  | none => return .error "scelta non valida".toList
  | some n =>
      match teams[before_one n]? with
      | none => return .error "scelta non valida".toList
      | some team => return .ok team

variable (lib : Developer.Libs)

def pick_team (sess : DeveloperSession) (wanted : Option Str) (interactive : Bool) :
    Session (Except Str DeveloperTeam) := do
  match ← outer (list_teams lib sess).run with
  | .error e => return .error (lib.grandslam.display e)
  | .ok [] => return .error "nessun team sviluppatore su questo Apple ID".toList
  | .ok (first :: teams) =>
      match wanted with
      | some id =>
          match (first :: teams).find? (·.team_id = id) with
          | none =>
              return .error ("il team ".toList ++ id ++ " non esiste su questo Apple ID".toList)
          | some team => return .ok team
      | none =>
          if teams.isEmpty ∨ interactive = false then return .ok first
          else inner (choose_team (first :: teams))

end Team

section Commands

variable (lib : Developer.Libs) (ext : Ext)

def open_session (interactive : Bool) (apple_id password : Str) :
    Session (Except Str DeveloperSession) := do
  match ← inner (perform .prepare_state) with
  | .error e => return .error e
  | .ok () =>
      GrandSlam.signed_in lib (get_2fa_code interactive) apple_id password >>= GrandSlam.finish lib

-- Whether the password is to be saved.
def yes (line : Str) : Bool :=
  ["s".toList, "si".toList, "sì".toList, "y".toList].contains (ext.to_lowercase (Str.trim line))

-- The part of the command that has the team.
def save_login (apple_id password : Str) (team : DeveloperTeam) : Talk (Except Str Unit) := do
  perform (.println ("Accesso riuscito. Team: ".toList ++ name_of team ++ " (".toList ++ team.team_id ++
    ")".toList))
  perform (.print ("Salvare la password su questo server per i rinnovi automatici ".toList ++
    "(file riservato a root)? [s/N] ".toList))
  let answer ← perform .read_line
  let password := if yes ext answer then password else []
  match ← perform (.save_account { apple_id, password, team_id := some team.team_id }) with
  | .error e => return .error e
  | .ok () =>
      perform (.println "Account salvato in account.json (permessi 600).".toList)
      return .ok ()

-- The part of the command that has the password.
def sign_in (apple_id password : Str) : Session (Except Str Unit) := do
  match ← open_session lib true apple_id password with
  | .error e => return .error e
  | .ok sess =>
      match ← pick_team lib sess none true with
      | .error e => return .error e
      | .ok team => inner (save_login ext apple_id password team)

def cmd_login (apple_id : Option Str) : Session (Except Str Unit) := do
  match apple_id with
  | none => return .error "uso: altkeeper login <apple-id>".toList
  | some apple_id =>
      match ← inner (perform (.prompt_password ("Password di ".toList ++ apple_id ++ ": ".toList))) with
      | .error e => return .error e
      | .ok typed =>
          let password := Str.trim typed
          if password = [] then return .error "password vuota".toList
          else sign_in lib ext apple_id password

def load_account : Talk (Except Str Account) := do
  match ← perform .read_account with
  | none => return .error "manca account.json: esegui prima `altkeeper login <apple-id>`".toList
  | some raw =>
      match ext.account raw with
      | .error e => return .error e
      | .ok acc =>
          if acc.password = [] then
            return .error "password non salvata: rifai `altkeeper login` e scegli di salvarla".toList
          else return .ok acc

def print_apps : List Developer.AppId → Talk Unit
  | [] => return ()
  | a :: ids => do
      perform (.println ("   ".toList ++ a.identifier ++ "  (".toList ++ a.name ++ ")  scade ".toList ++
        (a.expiration_date.map ext.date_text).getD "-".toList))
      print_apps ids

-- The part of the command that has the account.
def show_apps (acc : Account) : Session (Except Str Unit) := do
  match ← open_session lib false acc.apple_id acc.password with
  | .error e => return .error e
  | .ok sess =>
      match ← pick_team lib sess acc.team_id false with
      | .error e => return .error e
      | .ok team =>
          match ← outer (list_app_ids lib sess team (some .ios)).run with
          | .error e => return .error (lib.grandslam.display e)
          | .ok ids =>
              inner (perform (.println ("Team ".toList ++ team.team_id ++ ": ".toList ++
                (toString ids.length).toList ++ " App ID".toList)))
              inner (print_apps ext ids)
              return .ok ()

def cmd_apps : Session (Except Str Unit) := do
  match ← inner (load_account ext) with
  | .error e => return .error e
  | .ok acc => show_apps lib ext acc

end Commands

end AltKeeper.Terminal
