import AltKeeper.Phone.Search
import AltKeeper.Renew

-- What a renewal can call, part by part, whatever it is told.
namespace AltKeeper

-- What opens a session besides asking for codes.
def Cmd.logs_in : Cmd → Bool
  | .prepare_state => true
  | .begin_login _ _ => true
  | .answer_login _ => true
  | .end_login => true
  | .developer_session => true
  | _ => false

variable {ext : Ext} {P : Cmd → Prop}

namespace Apple

theorem load_account_uses (hread : P .read_account) : (load_account ext).Uses P := by
  refine .perform_bind hread fun raw => ?_
  cases raw with
  | none => trivial
  | some raw =>
      dsimp only
      split
      · trivial
      · split <;> trivial

theorem read_account_uses (hread : P .read_account) : (read_account ext).Uses P := by
  refine .perform_bind hread fun raw => ?_
  cases raw with
  | none => trivial
  | some raw =>
      dsimp only
      split <;> trivial

theorem answer_nothing_uses (hanswer : ∀ answer, P (.answer_login answer)) (asked : List (Option Str)) :
    (answer_nothing asked).Uses P := by
  induction asked with
  | nil => trivial
  | cons _ asked ih => exact .perform_bind (hanswer _) fun _ => ih

theorem finish_login_uses (hlogin : P .end_login) (hsession : P .developer_session) :
    finish_login.Uses P := by
  refine .perform_bind hlogin fun r => ?_
  cases r with
  | error e => trivial
  | ok _ =>
      refine .perform_bind hsession fun r => ?_
      cases r <;> trivial

theorem open_session_uses (hlogs : ∀ c : Cmd, c.logs_in = true → P c) (apple_id password : Str) :
    (open_session apple_id password).Uses P := by
  refine .perform_bind (hlogs _ rfl) fun prepared => ?_
  cases prepared with
  | error e => trivial
  | ok _ =>
      refine .perform_bind (hlogs _ rfl) fun asked => ?_
      apply Prog.Uses.bind (answer_nothing_uses (fun _ => hlogs _ rfl) asked)
      exact fun _ => finish_login_uses (hlogs _ rfl) (hlogs _ rfl)

theorem pick_team_uses (hteams : P .list_teams) (wanted : Option Str) : (pick_team wanted).Uses P := by
  refine .perform_bind hteams fun teams => ?_
  rcases teams with e | _ | ⟨first, teams⟩
  · trivial
  · trivial
  · cases wanted with
    | none => trivial
    | some id =>
        dsimp only
        split <;> trivial

end Apple

theorem Phone.phone_profiles_uses (hcopy : P .copy_all) : (Phone.phone_profiles ext).Uses P := by
  refine .perform_bind hcopy fun copied => ?_
  cases copied with
  | error e => trivial
  | ok raw =>
      dsimp only
      split <;> trivial

theorem days_left_uses (hclock : P .system_time) (p : Profile.PhoneProfile) : (days_left p).Uses P := by
  unfold days_left
  split
  · trivial
  · exact ⟨hclock, fun _ => trivial⟩

theorem profile_line_uses (hclock : P .system_time) (p : Profile.PhoneProfile) :
    (profile_line ext p).Uses P :=
  Prog.Uses.bind (days_left_uses hclock p) fun _ => trivial

section Says

variable {say : Str → Act Unit} (hsay : ∀ line, (say line).Uses P)

include hsay

theorem open_phone_uses (hfinds : ∀ c : Cmd, c.finds = true → P c) (addr : Option SocketAddr) :
    (open_phone ext say addr).Uses P := by
  apply Prog.Uses.bind (Phone.connect_auto_uses hfinds hsay addr)
  intro found
  cases found with
  | error e => trivial
  | ok found =>
      refine Prog.Uses.bind (?_ : (say_found ext say addr found).Uses P) fun _ => trivial
      unfold say_found
      split
      · exact hsay _
      · trivial

theorem due_loop_uses (hclock : P .system_time) (force : Bool) (min_days : Int)
    (latest : List Profile.PhoneProfile) : (due_loop say force min_days latest).Uses P := by
  induction latest with
  | nil => trivial
  | cons p latest ih =>
      rw [due_loop]
      split
      · exact Prog.Uses.bind (hsay _) fun _ => ih
      · refine Prog.Uses.bind (days_left_uses hclock p) fun days => ?_
        dsimp only
        split
        · exact Prog.Uses.bind (hsay _) fun _ => ih
        · exact Prog.Uses.bind ih fun _ => trivial

theorem renew_loop_uses (hdownload : ∀ team app, P (.download_profile team app))
    (hinstall : ∀ blob, P (.install blob)) (dry_run : Bool) (team : DeveloperTeam) (ids : List AppId)
    (due : List (Str × Int)) (done : Nat) :
    (renew_loop ext say dry_run team ids due done).Uses P := by
  induction due generalizing done with
  | nil => trivial
  | cons d due ih =>
      rw [renew_loop]
      split
      · exact Prog.Uses.bind (hsay _) fun _ => ih done
      · split
        · exact Prog.Uses.bind (hsay _) fun _ => ih done
        · apply Prog.Uses.bind (hsay _)
          intro _
          refine .perform_bind (hdownload _ _) fun r => ?_
          cases r with
          | error e => trivial
          | ok new =>
              apply Prog.Uses.bind (hsay _)
              intro _
              refine .perform_bind (hinstall _) fun r => ?_
              cases r with
              | error e => trivial
              | ok _ => exact Prog.Uses.bind (hsay _) fun _ => ih (done + 1)

theorem say_profiles_uses (hclock : P .system_time) (profiles : List Profile.PhoneProfile) :
    (say_profiles ext say profiles).Uses P := by
  induction profiles with
  | nil => trivial
  | cons p profiles ih =>
      apply Prog.Uses.bind (profile_line_uses hclock p)
      exact fun line => Prog.Uses.bind (hsay line) fun _ => ih

theorem final_check_uses (hcopy : P .copy_all) (hclock : P .system_time) (team_id : Str) :
    (final_check ext say team_id).Uses P := by
  apply Prog.Uses.bind (hsay _)
  intro _
  apply Prog.Uses.bind (Phone.phone_profiles_uses hcopy)
  intro after
  cases after with
  | error e => trivial
  | ok after => exact Prog.Uses.bind (say_profiles_uses hsay hclock _) fun _ => trivial

end Says

-- What a renewal does besides saying what it does.
def Cmd.renewal : Cmd → Bool
  | .read_account => true
  | .copy_all => true
  | .system_time => true
  | .prepare_state => true
  | .begin_login _ _ => true
  | .answer_login _ => true
  | .end_login => true
  | .developer_session => true
  | .list_teams => true
  | .list_app_ids _ => true
  | .download_profile _ _ => true
  | .install _ => true
  | .drop_link => true
  | c => c.finds

section Renewal

variable {say : Str → Act Unit} (hsay : ∀ line, (say line).Uses P)
  (hcalls : ∀ c : Cmd, c.renewal = true → P c)

include hcalls hsay

theorem renew_due_uses (acc : Account) (team_id : Str) (dry_run : Bool) (due : List (Str × Int)) :
    (renew_due ext say acc team_id dry_run due).Uses P := by
  apply Prog.Uses.bind (hsay _)
  intro _
  have hlogs : ∀ c : Cmd, c.logs_in = true → P c := fun c hc => hcalls c (by
    cases c <;> first | rfl | exact hc)
  apply Prog.Uses.bind (Apple.open_session_uses hlogs _ _)
  intro opened
  cases opened with
  | error e => trivial
  | ok _ =>
      apply Prog.Uses.bind (Apple.pick_team_uses (hcalls _ rfl) _)
      intro team
      cases team with
      | error e => trivial
      | ok team =>
          refine .perform_bind (hcalls _ rfl) fun ids => ?_
          cases ids with
          | error e => trivial
          | ok ids =>
              apply Prog.Uses.bind (renew_loop_uses hsay (fun _ _ => hcalls _ rfl)
                (fun _ => hcalls _ rfl) dry_run team ids due 0)
              intro done
              cases done with
              | error e => trivial
              | ok done =>
                  dsimp only
                  split
                  · exact final_check_uses hsay (hcalls _ rfl) (hcalls _ rfl) team_id
                  · trivial

theorem renew_on_phone_uses (acc : Account) (team_id : Str) (dry_run force : Bool) (min_days : Int) :
    (renew_on_phone ext say acc team_id dry_run force min_days).Uses P := by
  apply Prog.Uses.bind (Phone.phone_profiles_uses (hcalls _ rfl))
  intro profiles
  cases profiles with
  | error e => trivial
  | ok profiles =>
      apply Prog.Uses.bind (hsay _)
      intro _
      split
      · trivial
      · apply Prog.Uses.bind (due_loop_uses hsay (hcalls _ rfl) force min_days _)
        intro due
        split
        · exact Prog.Uses.bind (hsay _) fun _ => trivial
        · exact renew_due_uses hsay hcalls acc team_id dry_run due

theorem cmd_renew_uses (addr : Option SocketAddr) (dry_run force : Bool) (min_days : Int) :
    (cmd_renew ext say addr dry_run force min_days).Uses P := by
  have hfinds : ∀ c : Cmd, c.finds = true → P c := fun c hc => hcalls c (by
    cases c <;> first | rfl | exact hc)
  apply Prog.Uses.bind (Apple.load_account_uses (hcalls _ rfl))
  intro loaded
  cases loaded with
  | error e => trivial
  | ok acc =>
      dsimp only
      split
      · trivial
      · apply Prog.Uses.bind (hsay _)
        intro _
        apply Prog.Uses.bind (open_phone_uses hsay hfinds addr)
        intro opened
        cases opened with
        | error e => trivial
        | ok _ =>
            apply Prog.Uses.bind (renew_on_phone_uses hsay hcalls acc _ dry_run force min_days)
            exact fun result => ⟨hcalls _ rfl, fun _ => trivial⟩

end Renewal

end AltKeeper
