import AltKeeper.Renew.Calls
import AltKeeper.Renew.Due

-- The steps of a renewal that reach Apple or change the phone.
namespace AltKeeper

open Profile (PhoneProfile LatestOf latest_by_bundle latest_kept)

-- What saying a line calls: the console, or the view of the job.
def Cmd.reports : Cmd → Bool
  | .println _ => true
  | .write_inner _ => true
  | _ => false

def Cmd.renewing : Cmd → Bool
  | .prepare_state => true
  | .begin_login _ _ => true
  | .list_app_ids _ => true
  | .download_profile _ _ => true
  | .install _ => true
  | _ => false

def steps (trace : Prog.Trace Resp) : Prog.Trace Resp := trace.filter (·.1.renewing)

-- The App IDs of the bundles due.
def jobs (ids : List AppId) (due : List (Str × Int)) : List AppId :=
  due.filterMap fun d => ids.find? (·.identifier = d.1)

-- Apps are renewed in order, each downloaded and then installed, up to the first that fails.
inductive Renewed : List AppId → List AppId → Prog.Trace Resp → Prop
  | stopped {apps : List AppId} : Renewed apps [] []
  | not_downloaded {app : AppId} {apps : List AppId} {team : DeveloperTeam} {e : Str} :
      Renewed (app :: apps) [] [⟨.download_profile team app, .error e⟩]
  | refused {app : AppId} {apps : List AppId} {team : DeveloperTeam} {new : Download} {e : Str} :
      Renewed (app :: apps) [] [⟨.download_profile team app, .ok new⟩,
        ⟨.install new.encoded_profile, .error e⟩]
  | installed {app : AppId} {apps done : List AppId} {team : DeveloperTeam} {new : Download}
      {events : Prog.Trace Resp} (rest : Renewed apps done events) :
      Renewed (app :: apps) (app :: done) (⟨.download_profile team app, .ok new⟩ ::
        ⟨.install new.encoded_profile, .ok ()⟩ :: events)

-- The steps once something is due: the sign-in, the App IDs, and the apps one after the other.
inductive RenewSteps (dry_run : Bool) (due : List (Str × Int)) :
    Prog.Trace Resp → Except Fail Unit → Prop
  | unprepared {e : Str} {f : Fail} : RenewSteps dry_run due [⟨.prepare_state, .error e⟩] (.error f)
  | no_session {apple_id password : Str} {asked : List (Option Str)} {f : Fail} :
      RenewSteps dry_run due [⟨.prepare_state, .ok ()⟩, ⟨.begin_login apple_id password, asked⟩]
        (.error f)
  | no_ids {apple_id password e : Str} {asked : List (Option Str)} {team : DeveloperTeam} {f : Fail} :
      RenewSteps dry_run due [⟨.prepare_state, .ok ()⟩, ⟨.begin_login apple_id password, asked⟩,
        ⟨.list_app_ids team, .error e⟩] (.error f)
  | listed {apple_id password : Str} {asked : List (Option Str)} {team : DeveloperTeam}
      {ids done : List AppId} {events : Prog.Trace Resp} {result : Except Fail Unit}
      (dry : dry_run = true → events = []) (renewed : Renewed (jobs ids due) done events)
      (whole : result = .ok () → dry_run = false → done = jobs ids due) :
      RenewSteps dry_run due (⟨.prepare_state, .ok ()⟩ :: ⟨.begin_login apple_id password, asked⟩ ::
        ⟨.list_app_ids team, .ok ids⟩ :: events) result

section Calm

variable {α : Type} {p : Act α} {a : α} {trace : Prog.Trace Resp}

-- A program without such steps.
def Calm (p : Act α) : Prop := p.Uses (·.renewing = false)

@[simp] theorem steps_append (first rest : Prog.Trace Resp) :
    steps (first ++ rest) = steps first ++ steps rest := List.filter_append ..

theorem Calm.steps (h : Calm p) (run : p.Runs trace a) : steps trace = [] :=
  List.filter_eq_nil_iff.mpr fun e he => Bool.eq_false_iff.mp (h.mem run e he)

theorem calm_of_finds (c : Cmd) (h : c.finds = true) : c.renewing = false := by
  cases c <;> first | rfl | cases h

theorem calm_of_reports (c : Cmd) (h : c.reports = true) : c.renewing = false := by
  cases c <;> first | rfl | cases h

theorem println_reports (line : Str) : (ask (.println line)).Uses (·.reports = true) :=
  ⟨rfl, fun _ => trivial⟩

variable {ext : Ext} {say : Str → Act Unit}
  (hsay : ∀ line, (say line).Uses (·.reports = true))

include hsay

theorem say_calm (line : Str) : Calm (say line) := (hsay line).mono calm_of_reports

theorem due_loop_calm (force : Bool) (min_days : Int) (latest : List PhoneProfile) :
    Calm (due_loop say force min_days latest) :=
  due_loop_uses (say_calm hsay) rfl force min_days latest

theorem final_check_calm (team_id : Str) : Calm (final_check ext say team_id) :=
  final_check_uses (say_calm hsay) rfl rfl team_id

end Calm

section Apple

variable {trace : Prog.Trace Resp}

theorem open_session_steps {apple_id password : Str} {r : Except Str Unit}
    (run : (Apple.open_session apple_id password).Runs trace r) :
    (∃ e, steps trace = [⟨.prepare_state, .error e⟩] ∧ r = .error e) ∨
      ∃ asked, steps trace = [⟨.prepare_state, .ok ()⟩, ⟨.begin_login apple_id password, asked⟩] := by
  obtain ⟨prepared, rest, rfl, hrest⟩ := (Prog.runs_perform_bind _ _ _ _).mp run
  cases prepared with
  | error e =>
      obtain ⟨rfl, rfl⟩ := hrest
      exact .inl ⟨e, rfl, rfl⟩
  | ok _ =>
      obtain ⟨asked, tail, rfl, htail⟩ := (Prog.runs_perform_bind _ _ _ _).mp hrest
      have hcalm : Calm (do Apple.answer_nothing asked; Apple.finish_login) :=
        Prog.Uses.bind (Apple.answer_nothing_uses (fun _ => rfl) asked) fun _ =>
          Apple.finish_login_uses rfl rfl
      refine .inr ⟨asked, ?_⟩
      rw [steps, List.filter_cons_of_pos rfl, List.filter_cons_of_pos rfl]
      exact congrArg (_ :: _ :: ·) (hcalm.steps htail)

end Apple

section Loop

variable {ext : Ext} {say : Str → Act Unit} (hsay : ∀ line, (say line).Uses (·.reports = true))
  {dry_run : Bool} {team : DeveloperTeam} {ids : List AppId} {trace : Prog.Trace Resp}

theorem jobs_skip {d : Str × Int} {due : List (Str × Int)}
    (h : ids.find? (·.identifier = d.1) = none) : jobs ids (d :: due) = jobs ids due :=
  List.filterMap_cons_none h

theorem jobs_cons {d : Str × Int} {due : List (Str × Int)} {app : AppId}
    (h : ids.find? (·.identifier = d.1) = some app) : jobs ids (d :: due) = app :: jobs ids due :=
  List.filterMap_cons_some h

include hsay

theorem renew_loop_steps {due : List (Str × Int)} {before : Nat} {r : Except Str Nat}
    (run : (renew_loop ext say dry_run team ids due before).Runs trace r) :
    ∃ done, Renewed (jobs ids due) done (steps trace) ∧ (dry_run = true → steps trace = []) ∧
      ∀ n, r = .ok n → dry_run = false → done = jobs ids due ∧ n = before + done.length := by
  induction due generalizing trace before with
  | nil =>
      obtain ⟨rfl, rfl⟩ := run
      refine ⟨[], .stopped, fun _ => rfl, ?_⟩
      rintro n ⟨⟩ -
      exact ⟨rfl, rfl⟩
  | cons d due ih =>
      obtain ⟨bundle, days⟩ := d
      cases hfind : ids.find? (·.identifier = bundle) with
      | none =>
          rw [renew_loop, hfind] at run
          obtain ⟨said, _, rest, rfl, hsaid, hrest⟩ := (Prog.runs_bind _ _ _ _).mp run
          rw [steps_append, (say_calm hsay _).steps hsaid, List.nil_append, jobs_skip hfind]
          exact ih hrest
      | some app =>
          rw [renew_loop, hfind] at run
          rw [jobs_cons hfind]
          dsimp only at run
          split at run
          case isTrue hdry =>
            obtain ⟨said, _, rest, rfl, hsaid, hrest⟩ := (Prog.runs_bind _ _ _ _).mp run
            rw [steps_append, (say_calm hsay _).steps hsaid, List.nil_append]
            obtain ⟨done, hrenewed, hnone, hwhole⟩ := ih hrest
            rw [hnone hdry]
            refine ⟨[], .stopped, fun _ => rfl, fun n hn hwet => ?_⟩
            rw [hdry] at hwet
            cases hwet
          case isFalse hwet =>
            obtain ⟨said, _, rest, rfl, hsaid, hrest⟩ := (Prog.runs_bind _ _ _ _).mp run
            rw [steps_append, (say_calm hsay _).steps hsaid, List.nil_append]
            have hdry (events : Prog.Trace Resp) (h : dry_run = true) : events = [] := absurd h hwet
            obtain ⟨new, later, rfl, hlater⟩ := (Prog.runs_perform_bind _ _ _ _).mp hrest
            cases new with
            | error e =>
                obtain ⟨rfl, rfl⟩ := hlater
                exact ⟨[], .not_downloaded, hdry _, fun n hn => absurd hn (by simp)⟩
            | ok new =>
                obtain ⟨said, _, asking, rfl, hsaid, hasking⟩ := (Prog.runs_bind _ _ _ _).mp hlater
                obtain ⟨r', last, rfl, hlast⟩ := (Prog.runs_perform_bind _ _ _ _).mp hasking
                have hsteps : steps (⟨.download_profile team app, .ok new⟩ ::
                      (said ++ ⟨.install new.encoded_profile, r'⟩ :: last)) =
                    ⟨.download_profile team app, .ok new⟩ ::
                      ⟨.install new.encoded_profile, r'⟩ :: steps last := by
                  rw [steps, List.filter_cons_of_pos rfl, List.filter_append,
                    List.filter_cons_of_pos rfl]
                  exact congrArg (fun calm => _ :: (calm ++ _ :: _)) ((say_calm hsay _).steps hsaid)
                rw [hsteps]
                cases r' with
                | error e =>
                    obtain ⟨rfl, rfl⟩ := hlast
                    exact ⟨[], .refused, hdry _, fun n hn => absurd hn (by simp)⟩
                | ok _ =>
                    obtain ⟨said', _, others, rfl, hsaid', hothers⟩ :=
                      (Prog.runs_bind _ _ _ _).mp hlast
                    obtain ⟨done, hrenewed, -, hwhole⟩ := ih hothers
                    rw [steps_append, (say_calm hsay _).steps hsaid', List.nil_append]
                    refine ⟨app :: done, .installed hrenewed, hdry _, fun n hn hwet => ?_⟩
                    obtain ⟨rfl, rfl⟩ := hwhole n hn hwet
                    refine ⟨rfl, ?_⟩
                    rw [List.length_cons]
                    omega

theorem renew_due_steps {acc : Account} {team_id : Str} {due : List (Str × Int)}
    {result : Except Fail Unit}
    (run : (renew_due ext say acc team_id dry_run due).Runs trace result) :
    RenewSteps dry_run due (steps trace) result := by
  obtain ⟨said, _, rest, rfl, hsaid, hrest⟩ := (Prog.runs_bind _ _ _ _).mp run
  rw [steps_append, (say_calm hsay _).steps hsaid, List.nil_append]
  obtain ⟨session, opened, later, rfl, hsession, hlater⟩ := (Prog.runs_bind _ _ _ _).mp hrest
  rw [steps_append]
  rcases open_session_steps hsession with ⟨e, hsteps, rfl⟩ | ⟨asked, hsteps⟩
  · obtain ⟨rfl, rfl⟩ := hlater
    rw [hsteps]
    exact .unprepared
  rw [hsteps]
  cases opened with
  | error e =>
      obtain ⟨rfl, rfl⟩ := hlater
      exact .no_session
  | ok _ =>
      obtain ⟨picking, picked, asking, rfl, hpicking, hasking⟩ := (Prog.runs_bind _ _ _ _).mp hlater
      have hpick : Calm (Apple.pick_team (some team_id)) :=
        Apple.pick_team_uses (P := fun c => c.renewing = false) rfl _
      rw [steps_append, hpick.steps hpicking, List.nil_append]
      cases picked with
      | error e =>
          obtain ⟨rfl, rfl⟩ := hasking
          exact .no_session
      | ok team =>
          obtain ⟨ids, renewing, rfl, hrenewing⟩ := (Prog.runs_perform_bind _ _ _ _).mp hasking
          cases ids with
          | error e =>
              obtain ⟨rfl, rfl⟩ := hrenewing
              exact .no_ids
          | ok ids =>
              obtain ⟨loop, looped, last, rfl, hloop, hlast⟩ := (Prog.runs_bind _ _ _ _).mp hrenewing
              obtain ⟨done, hrenewed, hdry, hwhole⟩ := renew_loop_steps hsay hloop
              have hcalm : steps last = [] := by
                cases looped with
                | error e =>
                    obtain ⟨rfl, rfl⟩ := hlast
                    rfl
                | ok n =>
                    dsimp only at hlast
                    split at hlast
                    · exact (final_check_calm hsay team_id).steps hlast
                    · obtain ⟨rfl, rfl⟩ := hlast
                      rfl
              rw [steps, List.filter_cons_of_pos rfl]
              change RenewSteps dry_run due (_ :: _ :: _ :: steps (loop ++ last)) result
              rw [steps_append, hcalm, List.append_nil]
              refine .listed hdry hrenewed fun hok hwet => ?_
              cases looped with
              | error e =>
                  obtain ⟨rfl, rfl⟩ := hlast
                  cases hok
              | ok n => exact (hwhole n rfl hwet).1

end Loop

end AltKeeper
