import AltKeeper.GrandSlam.Session

-- The renewal with all that it asks of Apple, and how the program's own model stands for it.
namespace AltKeeper.Developer

open GrandSlam (Full Opened apple_step no_code open_session pick_team pick_team_refines
  renewal_session_refines)
open Prog (RefinesBy inner outer refines_inner)

section Renewal

variable (lib : Libs) (ext : Ext) (say : Str → Act Unit)

def app_ids (sess : DeveloperSession) (team : DeveloperTeam) : Full (Except Str (List AppId)) := do
  return (← outer (list_app_ids lib sess team (some .ios)).run).mapError lib.grandslam.display

def download_profile (sess : DeveloperSession) (team : DeveloperTeam) (app : AppId) :
    Full (Except Str Download) := do
  return (← outer (download_team_provisioning_profile lib sess team app (some .ios)).run).mapError
    lib.grandslam.display

-- Downloads and installs a profile for each bundle due; the result is how many were installed.
def renew_loop (sess : DeveloperSession) (dry_run : Bool) (team : DeveloperTeam) (ids : List AppId) :
    List (Str × Int) → Nat → Full (Except Str Nat)
  | [], done => return .ok done
  | (bundle, days) :: due, done => do
      match ids.find? (·.identifier = bundle) with
      | none =>
          inner (say ("   ".toList ++ bundle ++ ": no matching App ID on Apple, skipping".toList))
          renew_loop sess dry_run team ids due done
      | some app =>
          if dry_run then
            inner (say ("   ".toList ++ bundle ++ ": expires in ".toList ++ (toString days).toList ++
              " days, WOULD RENEW (dry run)".toList))
            renew_loop sess dry_run team ids due done
          else
            inner (say ("   ".toList ++ bundle ++ ": expires in ".toList ++ (toString days).toList ++
              " days, downloading a new profile...".toList))
            match ← download_profile lib sess team app with
            | .error e => return .error e
            | .ok new =>
                inner (say ("      nuovo profilo valido fino al ".toList ++ ext.date_text new.date_expire))
                match ← inner (ask (.install new.encoded_profile)) with
                | .error e => return .error e
                | .ok () =>
                    inner (say "      installed on the phone".toList)
                    renew_loop sess dry_run team ids due (done + 1)

-- What is left to do once something is due.
def renew_due (acc : Account) (team_id : Str) (dry_run : Bool) (due : List (Str × Int)) :
    Full (Except Fail Unit) := do
  inner (say "Signing in to Apple...".toList)
  match ← open_session lib no_code acc.apple_id acc.password with
  | .error e => return .error (.err e)
  | .ok sess =>
      match ← pick_team lib sess (some team_id) with
      | .error e => return .error (.err e)
      | .ok team =>
          match ← app_ids lib sess team with
          | .error e => return .error (.err e)
          | .ok ids =>
              match ← renew_loop lib ext say sess dry_run team ids due 0 with
              | .error e => return .error (.err e)
              | .ok done =>
                  if dry_run = false ∧ 0 < done then inner (final_check ext say team_id)
                  else return .ok ()

-- The part of the renewal that has the link open.
def renew_on_phone (acc : Account) (team_id : Str) (dry_run force : Bool) (min_days : Int) :
    Full (Except Fail Unit) := do
  match ← inner (Phone.phone_profiles ext) with
  | .error e => return .error e
  | .ok profiles =>
      let mine := of_team team_id profiles
      inner (say ((toString profiles.length).toList ++ " profiles on the phone, ".toList ++
        (toString mine.length).toList ++ " for team ".toList ++ team_id))
      if mine = [] then return .ok ()
      let due ← inner (due_loop say force min_days (Profile.latest_by_bundle mine))
      if due = [] then
        inner (say "Nothing to renew: skipping Apple sign-in.".toList)
        return .ok ()
      renew_due lib ext say acc team_id dry_run due

def cmd_renew (addr : Option SocketAddr) (dry_run force : Bool) (min_days : Int) :
    Full (Except Fail Unit) := do
  match ← inner (Apple.load_account ext) with
  | .error e => return .error (.err e)
  | .ok acc =>
      match acc.team_id with
      | none => return .error (.err "team not saved: sign in again".toList)
      | some team_id =>
          inner (say "Connecting to the phone...".toList)
          match ← inner (open_phone ext say addr) with
          | .error e => return .error (.err e)
          | .ok () =>
              let result ← renew_on_phone lib ext say acc team_id dry_run force min_days
              inner (ask .drop_link)
              return result

end Renewal

section Refinement

variable {lib : Libs} {ext : Ext} {say : Str → Act Unit}

-- What the program's model keeps of an App ID.
def AppId.brief (app : AppId) : AltKeeper.AppId := { identifier := app.identifier, name := app.name }

theorem app_ids_refines (sess : DeveloperSession) (team : DeveloperTeam) :
    RefinesBy apple_step (fun ids listed => ids.map (List.map AppId.brief) = listed)
      (app_ids lib sess team) (ask (.list_app_ids team)) := by
  refine RefinesBy.bind (g := Prog.ret) (@Prog.refines_hidden _ _ _ _ Resp _ (.list_app_ids team) rfl
    (list_app_ids lib sess team (some .ios)).run fun ids =>
      (ids.mapError lib.grandslam.display).map (List.map AppId.brief)) ?_
  rintro ids _ rfl
  exact Prog.refines_ret rfl

theorem download_profile_refines (sess : DeveloperSession) (team : DeveloperTeam) (app : AppId) :
    Prog.Refines apple_step (download_profile lib sess team app)
      (ask (.download_profile team app.brief)) := by
  refine RefinesBy.bind (g := Prog.ret) (@Prog.refines_hidden _ _ _ _ Resp _
    (.download_profile team app.brief) rfl
    (download_team_provisioning_profile lib sess team app (some .ios)).run fun new =>
      new.mapError lib.grandslam.display) ?_
  rintro new _ rfl
  exact Prog.refines_ret rfl

-- The App ID of a bundle is found among those the model keeps as it is among all.
theorem find_brief (ids : List AppId) (bundle : Str) :
    (ids.map AppId.brief).find? (·.identifier = bundle) =
      (ids.find? (·.identifier = bundle)).map AppId.brief := by
  rw [List.find?_map]
  rfl

theorem renew_loop_refines (sess : DeveloperSession) (dry_run : Bool) (team : DeveloperTeam)
    (ids : List AppId) (due : List (Str × Int)) (done : Nat) :
    Prog.Refines apple_step (renew_loop lib ext say sess dry_run team ids due done)
      (AltKeeper.renew_loop ext say dry_run team (ids.map AppId.brief) due done) := by
  induction due generalizing done with
  | nil => exact Prog.refines_ret rfl
  | cons d due ih =>
      obtain ⟨bundle, days⟩ := d
      rw [renew_loop, AltKeeper.renew_loop, find_brief]
      cases ids.find? (·.identifier = bundle) with
      | none => exact (refines_inner (say _)).bind fun _ => ih done
      | some app =>
          dsimp only [Option.map_some]
          cases dry_run with
          | true => exact (refines_inner (say _)).bind fun _ => ih done
          | false =>
              refine (refines_inner (say _)).bind fun _ => ?_
              refine (download_profile_refines sess team app).bind fun new => ?_
              cases new with
              | error e => exact Prog.refines_ret rfl
              | ok new =>
                  refine (refines_inner (say _)).bind fun _ => ?_
                  refine (refines_inner (ask (.install new.encoded_profile))).bind fun installed => ?_
                  cases installed with
                  | error e => exact Prog.refines_ret rfl
                  | ok _ => exact (refines_inner (say _)).bind fun _ => ih (done + 1)

theorem renew_due_refines (acc : Account) (team_id : Str) (dry_run : Bool) (due : List (Str × Int)) :
    Prog.Refines apple_step (renew_due lib ext say acc team_id dry_run due)
      (AltKeeper.renew_due ext say acc team_id dry_run due) := by
  refine (refines_inner (say _)).bind fun _ => ?_
  refine (renewal_session_refines acc.apple_id acc.password).bind ?_
  rintro (e | sess) _ rfl
  · exact Prog.refines_ret rfl
  refine (pick_team_refines sess (some team_id)).bind fun team => ?_
  cases team with
  | error e => exact Prog.refines_ret rfl
  | ok team =>
      refine (app_ids_refines sess team).bind ?_
      rintro (e | ids) _ rfl
      · exact Prog.refines_ret rfl
      refine (renew_loop_refines sess dry_run team ids due 0).bind fun done => ?_
      cases done with
      | error e => exact Prog.refines_ret rfl
      | ok done =>
          dsimp only
          by_cases hcheck : dry_run = false ∧ 0 < done
          · rw [if_pos hcheck, if_pos hcheck]
            exact refines_inner _
          · rw [if_neg hcheck, if_neg hcheck]
            exact Prog.refines_ret rfl

-- Whatever a renewal does apart from its calls to Apple, the program's model does.
theorem cmd_renew_refines (addr : Option SocketAddr) (dry_run force : Bool) (min_days : Int) :
    Prog.Refines apple_step (cmd_renew lib ext say addr dry_run force min_days)
      (AltKeeper.cmd_renew ext say addr dry_run force min_days) := by
  refine (refines_inner (Apple.load_account ext)).bind fun loaded => ?_
  cases loaded with
  | error e => exact Prog.refines_ret rfl
  | ok acc =>
      dsimp only
      cases acc.team_id with
      | none => exact Prog.refines_ret rfl
      | some team_id =>
          refine (refines_inner (say _)).bind fun _ => ?_
          refine (refines_inner (open_phone ext say addr)).bind fun opened => ?_
          cases opened with
          | error e => exact Prog.refines_ret rfl
          | ok _ =>
              refine Prog.Refines.bind ?_ fun result =>
                (refines_inner (ask .drop_link)).bind fun _ => Prog.refines_ret rfl
              refine (refines_inner (Phone.phone_profiles ext)).bind fun profiles => ?_
              cases profiles with
              | error e => exact Prog.refines_ret rfl
              | ok profiles =>
                  refine (refines_inner (say _)).bind fun _ => ?_
                  by_cases hmine : of_team team_id profiles = []
                  · rw [if_pos hmine, if_pos hmine]
                    exact Prog.refines_ret rfl
                  · rw [if_neg hmine, if_neg hmine]
                    refine (refines_inner (due_loop say force min_days _)).bind fun due => ?_
                    by_cases hdue : due = []
                    · rw [if_pos hdue, if_pos hdue]
                      exact (refines_inner (say _)).bind fun _ => Prog.refines_ret rfl
                    · rw [if_neg hdue, if_neg hdue]
                      exact renew_due_refines acc team_id dry_run due

end Refinement

end AltKeeper.Developer
