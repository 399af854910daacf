import AltKeeper.Web
import AltKeeper.Renew.Calls

-- What the jobs can call besides what they write on the page.
namespace AltKeeper

-- What a check, a renewal and a login do away from the page.
def Cmd.job_work : Cmd → Bool
  | .expired => true
  | .read_inner => true
  | .open_renew_log => true
  | .append_renew_log _ => true
  | .local_time => true
  | .save_account _ => true
  | c => c.renewal

theorem Cmd.job_work_of_renewal {c : Cmd} (h : c.renewal = true) : c.job_work = true := by
  cases c <;> first | rfl | exact h

theorem Cmd.job_work_of_finds {c : Cmd} (h : c.finds = true) : c.job_work = true := by
  cases c <;> first | rfl | exact h

-- What a request for a code does.
def Cmd.asks_code : Cmd → Bool
  | .store_last_error _ => true
  | .publish_sender => true
  | .store_asking _ => true
  | .wait_answer _ => true
  | .take_sender => true
  | .answer_login _ => true
  | _ => false

-- What the requests to the page do besides starting a job and giving an answer.
def Cmd.page_work : Cmd → Bool
  | .read_account => true
  | .pairing_exists => true
  | .system_time => true
  | .read_renew_log => true
  | .read_inner => true
  | .load_asking => true
  | .load_last_error => true
  | .store_last_error _ => true
  | .try_busy => true
  | .load_busy => true
  | .respond _ _ => true
  | _ => false

namespace Web

variable {ext : Ext} {P : Cmd → Prop}

theorem now_uses (hclock : P .system_time) : now.Uses P := ⟨hclock, fun _ => trivial⟩

section Jobs

theorem app_rows_uses (hclock : P .system_time) (team : Str) (profiles : List Profile.PhoneProfile) :
    (app_rows ext team profiles).Uses P := by
  induction profiles with
  | nil => trivial
  | cons p profiles ih =>
      unfold app_rows
      split
      · exact ih
      · apply Prog.Uses.bind (days_left_uses hclock p)
        exact fun days => Prog.Uses.bind ih fun _ => trivial

theorem rows_for_uses (hclock : P .system_time) (team : Option Str)
    (profiles : List Profile.PhoneProfile) : (rows_for ext team profiles).Uses P := by
  cases team with
  | none => trivial
  | some team => exact Prog.Uses.bind (app_rows_uses hclock team _) fun _ => trivial

theorem append_log_uses (hopen : P .open_renew_log) (htime : P .local_time)
    (happend : ∀ text, P (.append_renew_log text)) (lines : List Str) (ok : Bool) :
    (append_log lines ok).Uses P := by
  have hlines : (append_lines lines).Uses P := by
    induction lines with
    | nil => trivial
    | cons line lines ih => exact .perform_bind (happend _) fun _ => ih
  refine .perform_bind hopen fun opened => ?_
  cases opened with
  | false => trivial
  | true =>
      refine .perform_bind htime fun time => .perform_bind (happend _) fun _ => ?_
      exact Prog.Uses.bind hlines fun _ => ⟨happend _, fun _ => trivial⟩

section Work

variable (hwork : ∀ c : Cmd, c.job_work = true → P c) (app : App)

include hwork

theorem look_at_phone_uses : (look_at_phone ext app).Uses P := by
  have hquiet : ∀ line, (quiet line).Uses P := fun _ => trivial
  apply Prog.Uses.bind (Phone.connect_auto_uses (fun c hc => hwork c (Cmd.job_work_of_finds hc))
    hquiet app.phone)
  intro found
  cases found with
  | error e => trivial
  | ok addr =>
      apply Prog.Uses.bind (Phone.phone_profiles_uses (hwork _ rfl))
      refine fun profiles => .perform_bind (hwork _ rfl) fun _ => ?_
      cases profiles <;> trivial

theorem look_in_time_uses : (look_in_time ext app).Uses P := by
  apply Prog.Uses.bind ((look_at_phone_uses hwork app).interruptible (hwork _ rfl))
  intro result
  cases result with
  | some result => trivial
  | none => exact ⟨hwork _ rfl, fun _ => trivial⟩

-- What a check writes leaves the view of the job as it is.
theorem run_check_uses (hwrite : ∀ f : Inner → Inner, (∀ g, (f g).job = g.job) → P (.write_inner f)) :
    (run_check ext app).Uses P := by
  have hchecked : ∀ at_time found, (checked at_time found >>= fun _ => pure (some ())).Uses P :=
    fun at_time found => .perform_bind (hwrite _ fun _ => rfl) fun _ => trivial
  refine .perform_bind (hwrite _ fun _ => rfl) fun _ => ?_
  apply Prog.Uses.bind (Apple.read_account_uses (hwork _ rfl))
  intro account
  apply Prog.Uses.bind (look_in_time_uses hwork app)
  intro result
  apply Prog.Uses.bind (now_uses (hwork _ rfl))
  intro at_time
  rcases result with _ | (e | _) | ⟨addr, profiles⟩
  · exact hchecked at_time _
  · exact hchecked at_time _
  · trivial
  · apply Prog.Uses.bind (rows_for_uses (hwork _ rfl) _ profiles)
    exact fun apps => hchecked at_time _

-- What is left of a renewal once its end is on the page.
theorem after_renewed_uses
    (hwrite : ∀ f : Inner → Inner, (∀ g, (f g).job = g.job) → P (.write_inner f)) (ok : Bool) :
    (ask .read_inner >>= fun g => append_log g.job.lines ok >>= fun _ => run_check ext app).Uses P := by
  refine .perform_bind (hwork _ rfl) fun g => ?_
  apply Prog.Uses.bind (append_log_uses (hwork _ rfl) (hwork _ rfl) (fun _ => hwork _ rfl) _ ok)
  exact fun _ => run_check_uses hwork app hwrite

end Work

section Login

theorem ask_codes_uses (hcode : ∀ c : Cmd, c.asks_code = true → P c) (asked : List (Option Str)) :
    (ask_codes asked).Uses P := by
  induction asked with
  | nil => trivial
  | cons last_error asked ih =>
      refine Prog.Uses.bind (?_ : (ask_code last_error).Uses P) fun _ => ih
      refine .perform_bind (hcode _ rfl) fun _ => .perform_bind (hcode _ rfl) fun rx => ?_
      refine .perform_bind (hcode _ rfl) fun _ => .perform_bind (hcode _ rfl) fun answer => ?_
      refine .perform_bind (hcode _ rfl) fun _ => .perform_bind (hcode _ rfl) fun _ => ?_
      exact ⟨hcode _ rfl, fun _ => trivial⟩

variable (apple_id password : Str) (save : Bool) (hcode : ∀ c : Cmd, c.asks_code = true → P c)
  (hlogs : ∀ c : Cmd, c.logs_in = true → P c)

-- What is left of a login once its session is open, or has failed.
def after_session (apple_id password : Str) (save : Bool) : Except Str Unit → Act (Except Str Str)
  | .error e => return .error e
  | .ok () => do
      match ← Apple.pick_team none with
      | .error e => return .error e
      | .ok team =>
          let password := if save then password else []
          match ← ask (.save_account { apple_id, password, team_id := some team.team_id }) with
          | .error e => return .error e
          | .ok () => return .ok (team.name.getD team.team_id)

theorem sign_in_eq :
    sign_in apple_id password save =
      open_session_web apple_id password >>= after_session apple_id password save := rfl

-- What a login saves is the account it was given, with the team that was found.
def Saves (P : Cmd → Prop) (apple_id password : Str) (save : Bool) : Prop :=
  ∀ team_id, P (.save_account
    { apple_id, password := if save then password else [], team_id := some team_id })

theorem after_session_uses (hteams : P .list_teams) (hsave : Saves P apple_id password save)
    (opened : Except Str Unit) : (after_session apple_id password save opened).Uses P := by
  cases opened with
  | error e => trivial
  | ok _ =>
      apply Prog.Uses.bind (Apple.pick_team_uses hteams none)
      intro team
      cases team with
      | error e => trivial
      | ok team =>
          refine .perform_bind (hsave _) fun saved => ?_
          cases saved <;> trivial

include hcode hlogs

theorem open_session_web_uses : (open_session_web apple_id password).Uses P := by
  refine .perform_bind (hlogs _ rfl) fun prepared => ?_
  cases prepared with
  | error e => trivial
  | ok _ =>
      refine .perform_bind (hlogs _ rfl) fun asked => ?_
      apply Prog.Uses.bind (ask_codes_uses hcode asked)
      exact fun _ => Apple.finish_login_uses (hlogs _ rfl) (hlogs _ rfl)

theorem sign_in_uses (hteams : P .list_teams) (hsave : Saves P apple_id password save) :
    (sign_in apple_id password save).Uses P := by
  rw [sign_in_eq]
  apply Prog.Uses.bind (open_session_web_uses apple_id password hcode hlogs)
  exact after_session_uses apple_id password save hteams hsave

theorem run_login_uses (hteams : P .list_teams) (hsave : Saves P apple_id password save)
    (hwrite : ∀ f : Inner → Inner, (∀ g, (f g).job = g.job) → P (.write_inner f)) :
    (run_login ext apple_id password save).Uses P := by
  apply Prog.Uses.bind (sign_in_uses apple_id password save hcode hlogs hteams hsave)
  exact fun outcome => .perform_bind (hwrite _ fun _ => rfl) fun _ => trivial

end Login

end Jobs

section Handlers

theorem json_ok_uses (hrespond : ∀ status body, P (.respond status body)) : json_ok.Uses P :=
  ⟨hrespond _ _, fun _ => trivial⟩

theorem json_err_uses (hrespond : ∀ status body, P (.respond status body)) (status : Nat) (msg : String) :
    (json_err status msg).Uses P := ⟨hrespond _ _, fun _ => trivial⟩

theorem spawn_job_uses {job : Job} (hspawn : P (.spawn job)) : (spawn_job job).Uses P :=
  ⟨hspawn, fun _ => trivial⟩

theorem stale_uses (hclock : P .system_time) (pairing : Bool) (s : Snapshot) :
    (stale pairing s).Uses P := by
  unfold stale
  split
  · trivial
  · split
    · trivial
    · exact Prog.Uses.bind (now_uses hclock) fun _ => trivial

theorem answer_uses (htake : P .take_sender) (hsend : ∀ tx a, P (.send_answer tx a)) (a : TfaAnswer) :
    (answer a).Uses P := by
  refine .perform_bind htake fun taken => ?_
  cases taken with
  | none => trivial
  | some tx => exact ⟨hsend tx a, fun _ => trivial⟩

theorem give_answer_uses (htake : P .take_sender) (hsend : ∀ tx a, P (.send_answer tx a))
    (hrespond : ∀ status body, P (.respond status body)) (a : TfaAnswer) : (give_answer a).Uses P := by
  apply Prog.Uses.bind (answer_uses htake hsend a)
  intro delivered
  split
  · exact json_ok_uses hrespond
  · exact json_err_uses hrespond _ _

variable (hwork : ∀ c : Cmd, c.page_work = true → P c)

include hwork

section Check

variable (hstart : start_checking.Uses P) (hspawn : P (.spawn .check))

include hstart hspawn

theorem check_if_stale_uses (pairing : Bool) (s : Snapshot) : (check_if_stale pairing s).Uses P := by
  apply Prog.Uses.bind (stale_uses (hwork _ rfl) pairing s)
  intro old
  cases old with
  | false => trivial
  | true =>
      refine .perform_bind (hwork _ rfl) fun taken => ?_
      cases taken with
      | false => trivial
      | true => exact Prog.Uses.bind hstart fun _ => spawn_job_uses hspawn

theorem state_uses : (state ext).Uses P := by
  apply Prog.Uses.bind (Apple.read_account_uses (hwork _ rfl))
  refine fun account => .perform_bind (hwork _ rfl) fun pairing => .perform_bind (hwork _ rfl) fun g => ?_
  apply Prog.Uses.bind (check_if_stale_uses hwork hstart hspawn pairing g.snapshot)
  refine fun _ => .perform_bind (hwork _ rfl) fun log => .perform_bind (hwork _ rfl) fun g => ?_
  refine .perform_bind (hwork _ rfl) fun asking => .perform_bind (hwork _ rfl) fun code_error => ?_
  apply Prog.Uses.bind (now_uses (hwork _ rfl))
  exact fun time => .perform_bind (hwork _ rfl) fun busy => ⟨hwork _ rfl, fun _ => trivial⟩

theorem check_uses : check.Uses P := by
  refine .perform_bind (hwork _ rfl) fun taken => ?_
  cases taken with
  | false => exact json_err_uses (fun _ _ => hwork _ rfl) _ _
  | true =>
      apply Prog.Uses.bind hstart
      intro _
      exact Prog.Uses.bind (spawn_job_uses hspawn) fun _ => json_ok_uses fun _ _ => hwork _ rfl

end Check

theorem login_uses (apple_id password : Str) (save : Bool)
    (hwrite : ∀ f : Inner → Inner, (∀ g, (f g).job = g.job) → P (.write_inner f))
    (hspawn : ∀ id, P (.spawn (.login id password save))) : (login apple_id password save).Uses P := by
  unfold login
  dsimp only
  split
  · exact json_err_uses (fun _ _ => hwork _ rfl) _ _
  · refine .perform_bind (hwork _ rfl) fun taken => ?_
    cases taken with
    | false => exact json_err_uses (fun _ _ => hwork _ rfl) _ _
    | true =>
        refine .perform_bind (hwrite _ fun _ => rfl) fun _ => .perform_bind (hwork _ rfl) fun _ => ?_
        exact Prog.Uses.bind (spawn_job_uses (hspawn _)) fun _ => json_ok_uses fun _ _ => hwork _ rfl

theorem renew_uses (mode : Str) (hwrite : ∀ f, P (.write_inner f)) (hspawn : ∀ job, P (.spawn job)) :
    (renew ext mode).Uses P := by
  unfold renew
  split
  · exact json_err_uses (fun _ _ => hwork _ rfl) _ _
  · rename_i force _
    apply Prog.Uses.bind (Apple.read_account_uses (hwork _ rfl))
    intro account
    split
    · refine .perform_bind (hwork _ rfl) fun taken => ?_
      cases taken with
      | false => exact json_err_uses (fun _ _ => hwork _ rfl) _ _
      | true =>
          refine .perform_bind (hwrite _) fun _ => ?_
          exact Prog.Uses.bind (spawn_job_uses (hspawn _)) fun _ => json_ok_uses fun _ _ => hwork _ rfl
    · exact json_err_uses (fun _ _ => hwork _ rfl) _ _

end Handlers

section Threads

theorem run_job_uses (hwork : ∀ c : Cmd, c.job_work = true → P c)
    (hcode : ∀ c : Cmd, c.asks_code = true → P c) (hlogs : ∀ c : Cmd, c.logs_in = true → P c)
    (hwrite : ∀ f, P (.write_inner f)) (app : App) (job : Job) : (run_job ext app job).Uses P := by
  have hpush : ∀ line, (push_line line).Uses P := fun _ => ⟨hwrite _, fun _ => trivial⟩
  cases job with
  | check => exact run_check_uses hwork app fun f _ => hwrite f
  | renew force =>
      have hrenewed : ∀ ok, (renewed ext app ok).Uses P := fun ok =>
        .perform_bind (hwrite _) fun _ => after_renewed_uses hwork app (fun f _ => hwrite f) ok
      apply Prog.Uses.bind (cmd_renew_uses hpush
        (fun _ hc => hwork _ (Cmd.job_work_of_renewal hc)) app.phone false force RENEW_MIN_DAYS)
      rintro ((e | _) | _)
      · exact Prog.Uses.bind (hpush _) fun _ => hrenewed false
      · trivial
      · exact hrenewed true
  | login apple_id password save =>
      exact run_login_uses apple_id password save hcode hlogs (hwork _ rfl) (fun _ => hwork _ rfl)
        fun f _ => hwrite f

theorem handle_uses (hwork : ∀ c : Cmd, c.page_work = true → P c) (hwrite : ∀ f, P (.write_inner f))
    (htake : P .take_sender) (hsend : ∀ tx a, P (.send_answer tx a)) (hspawn : ∀ job, P (.spawn job))
    (req : HttpRequest) : (handle ext req).Uses P := by
  have hstart : start_checking.Uses P := ⟨hwrite _, fun _ => trivial⟩
  have hanswer : ∀ a, (give_answer a).Uses P :=
    give_answer_uses htake hsend fun _ _ => hwork _ rfl
  cases req with
  | state => exact state_uses hwork hstart (hspawn _)
  | check => exact check_uses hwork hstart (hspawn _)
  | renew mode => exact renew_uses hwork mode hwrite hspawn
  | login apple_id password save =>
      exact login_uses hwork apple_id password save (fun _ _ => hwrite _) fun _ => hspawn _
  | login_code code =>
      unfold handle login_code
      dsimp only
      split
      · exact json_err_uses (fun _ _ => hwork _ rfl) _ _
      · exact hanswer _
  | login_resend => exact hanswer .resend

end Threads

end Web

end AltKeeper
