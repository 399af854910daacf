import AltKeeper.AltServer.Operations
import AltKeeper.Lib.Desk
import AltKeeper.Process.Markers
import AltKeeper.Web.Calls

-- The codes that a login asks for: what the page answers reaches the request it was meant for.
namespace AltKeeper

section History

abbrev Log := Desk.Log TfaAnswer

-- What a step says of the codes: a request begins when its sender is published, and is over
-- when the login has its answer.
def note (log : Log) : Threads.Label Tid Resp → Log
  | .call _ ⟨.publish_sender, rx⟩ => log.publish rx
  | .call _ ⟨.wait_answer rx, _⟩ => log.receive rx
  | .call _ ⟨.send_answer tx answer, ok⟩ => log.send tx answer ok
  | .call _ ⟨.answer_login answer, _⟩ => log.give answer
  | _ => log

def history (steps : List Step) : Log := Threads.record note {} steps

-- What tokio says of its oneshot channels: an answer can be sent as long as the receiver is
-- there, and what was sent before the receiver gives up is received.
def Oneshot (log : Log) : (c : Cmd) → Resp c → Prop
  | .send_answer tx _, ok => ok = true ↔ tx ∉ log.dropped
  | .wait_answer rx, answer => log.Carries rx answer
  | _, _ => True

-- No job is cut short by a panic in the middle of a request.
def Unbroken (log : Log) (i : Tid) : (c : Cmd) → Resp c → Prop
  | .panicked, struck => (∃ n, i = .job n) → struck = true → log.pending = none
  | _, _ => True

end History

section Places

-- Where a thread stands: nowhere near the desk, with a sender it has taken, or behind the desk
-- as the job that may ask.
inductive Place where
  | visits
  | holds (tx : Nat)
  | owns (stage : Desk.Stage TfaAnswer)

namespace Place

def held : Place → Option Nat
  | .holds tx => some tx
  | _ => none

def Allows (p : Place) : Cmd → Prop
  | .publish_sender => p = .owns .idle
  | .store_asking asking =>
      (asking = true ∧ ∃ rx, p = .owns (.published rx)) ∨
        (asking = false ∧ ∃ rx answer, p = .owns (.answered rx answer))
  | .wait_answer rx => p = .owns (.asking rx)
  | .take_sender => p = .visits ∨ ∃ rx answer, p = .owns (.lowered rx answer)
  | .send_answer tx _ => p = .holds tx
  | .answer_login answer => p = .owns .idle ∨ ∃ rx, p = .owns (.cleared rx answer)
  | .drop_guard => p = .owns .idle
  | .spawn _ => p = .visits
  | _ => True

def advance (p : Place) : (c : Cmd) → Resp c → Place
  | .publish_sender, rx => .owns (.published rx)
  | .store_asking _, _ =>
      match p with
      | .owns (.published rx) => .owns (.asking rx)
      | .owns (.answered rx answer) => .owns (.lowered rx answer)
      | p => p
  | .wait_answer rx, answer => .owns (.answered rx answer)
  | .take_sender, taken =>
      match p, taken with
      | .owns (.lowered rx answer), _ => .owns (.cleared rx answer)
      | _, some tx => .holds tx
      | p, none => p
  | .send_answer _ _, _ => .visits
  | .answer_login _, _ => .owns .idle
  | .drop_guard, _ => .visits
  | _, _ => p

-- A panic finds no request in progress.
def Step (p : Place) : (c : Cmd) → Resp c → Place → Prop
  | .panicked, struck, p' => p' = p ∧ (struck = true → ∀ stage, p = .owns stage → stage = .idle)
  | c, r, p' => p' = p.advance c r

end Place

theorem visits_ne_owns (stage : Desk.Stage TfaAnswer) : Place.visits ≠ .owns stage := by simp

theorem holds_ne_owns (tx : Nat) (stage : Desk.Stage TfaAnswer) : Place.holds tx ≠ .owns stage := by simp

def attending : Prog.Protocol Resp Place where
  allows := Place.Allows
  step := Place.Step

-- What has to do with the codes, or with the end of a job.
def Cmd.at_desk : Cmd → Bool
  | .publish_sender => true
  | .store_asking _ => true
  | .wait_answer _ => true
  | .take_sender => true
  | .send_answer _ _ => true
  | .answer_login _ => true
  | .drop_guard => true
  | .spawn _ => true
  | _ => false

-- A job stays behind the desk until it drops its guard.
theorem owns_step {p p' : Place} {c : Cmd} {r : Resp c} (hp : ∃ stage, p = .owns stage)
    (hc : p.Allows c) (hbody : c.in_body = true) (hstep : p.Step c r p') : ∃ stage, p' = .owns stage := by
  obtain ⟨stage, rfl⟩ := hp
  cases c with
  | publish_sender => exact ⟨_, hstep⟩
  | wait_answer rx => exact ⟨_, hstep⟩
  | answer_login answer => exact ⟨_, hstep⟩
  | store_asking asking =>
      rcases hc with ⟨-, rx, ⟨⟩⟩ | ⟨-, rx, answer, ⟨⟩⟩
      · exact ⟨_, hstep⟩
      · exact ⟨_, hstep⟩
  | take_sender =>
      rcases hc with ⟨⟨⟩⟩ | ⟨rx, answer, ⟨⟩⟩
      exact ⟨_, hstep⟩
  | send_answer tx answer => cases hc
  | drop_guard => cases hbody
  | spawn job => cases hbody
  | panicked => exact ⟨stage, hstep.1⟩
  | _ => exact ⟨stage, hstep⟩

theorem attending_away {p : Place} {c : Cmd} (hc : c.at_desk = false) :
    attending.allows p c ∧ ∀ r p', attending.step p c r p' → p' = p := by
  cases c <;> first | exact ⟨trivial, fun _ _ h => h⟩ | exact ⟨trivial, fun _ _ h => h.1⟩ | exact nomatch hc

end Places

section Threads

variable {ext : Ext} {p : Place}

theorem away_wp {α : Type} {prog : Act α} (h : prog.Uses fun c => c.at_desk = false) :
    prog.wp attending (fun _ p' => p' = p) p :=
  Prog.wp_of_uses h fun _ => attending_away

namespace Web

-- What a job calls outside its requests for codes.
def Working (c : Cmd) : Prop := c.in_body = true ∧ (c.at_desk = false ∨ ∃ answer, c = .answer_login answer)

theorem working_wp {α : Type} {prog : Act α} (h : prog.Uses Working) :
    prog.wp (attending.restrict InBody) (fun _ p' => p' = .owns .idle) (.owns .idle) := by
  apply Prog.wp_of_uses h
  rintro c ⟨hbody, hc | ⟨answer, rfl⟩⟩
  · obtain ⟨hallowed, hstep⟩ := attending_away (p := .owns .idle) hc
    exact ⟨⟨hallowed, hbody⟩, hstep⟩
  · exact ⟨⟨.inl rfl, rfl⟩, fun _ _ h => h⟩

theorem working_job {c : Cmd} (hc : c.job_work = true) : Working c := by
  cases c <;> first | exact ⟨rfl, .inl rfl⟩ | exact ⟨rfl, .inr ⟨_, rfl⟩⟩ | exact nomatch hc

theorem working_write (f : Inner → Inner) : Working (.write_inner f) := ⟨rfl, .inl rfl⟩

theorem push_line_working (line : Str) : (push_line line).Uses Working :=
  ⟨working_write _, fun _ => trivial⟩

theorem run_renew_working (app : App) (force : Bool) : (run_renew ext app force).Uses Working := by
  have hrenewed : ∀ ok, (renewed ext app ok).Uses Working := fun ok =>
    .perform_bind (working_write _) fun _ =>
      after_renewed_uses (fun _ => working_job) app (fun f _ => working_write f) ok
  apply Prog.Uses.bind (cmd_renew_uses push_line_working
    (fun _ hc => working_job (Cmd.job_work_of_renewal hc)) app.phone false force RENEW_MIN_DAYS)
  intro result
  rcases result with (e | _) | _
  · exact Prog.Uses.bind (push_line_working _) fun _ => hrenewed false
  · trivial
  · exact hrenewed true

-- A request for a code, from beginning to end.
theorem ask_code_wp (last_error : Option Str) :
    (ask_code last_error).wp (attending.restrict InBody) (fun _ p' => p' = .owns .idle) (.owns .idle) := by
  refine ⟨⟨trivial, rfl⟩, fun _ p₁ h₁ => ?_⟩
  obtain rfl := h₁
  refine ⟨⟨rfl, rfl⟩, fun rx p₂ h₂ => ?_⟩
  obtain rfl := h₂
  refine ⟨⟨.inl ⟨rfl, rx, rfl⟩, rfl⟩, fun _ p₃ h₃ => ?_⟩
  obtain rfl := h₃
  refine ⟨⟨rfl, rfl⟩, fun answer p₄ h₄ => ?_⟩
  obtain rfl := h₄
  refine ⟨⟨.inr ⟨rfl, rx, answer, rfl⟩, rfl⟩, fun _ p₅ h₅ => ?_⟩
  obtain rfl := h₅
  refine ⟨⟨.inr ⟨rx, answer, rfl⟩, rfl⟩, fun _ p₆ h₆ => ?_⟩
  obtain rfl := h₆
  exact ⟨⟨.inr ⟨rx, rfl⟩, rfl⟩, fun _ _ h => h⟩

theorem ask_codes_wp (asked : List (Option Str)) :
    (ask_codes asked).wp (attending.restrict InBody) (fun _ p' => p' = .owns .idle) (.owns .idle) := by
  induction asked with
  | nil => rfl
  | cons last_error asked ih =>
      apply Prog.wp_seq (ask_code_wp last_error)
      rintro - _ rfl
      exact ih

theorem open_session_web_wp (apple_id password : Str) :
    (open_session_web apple_id password).wp (attending.restrict InBody)
      (fun _ p' => p' = .owns .idle) (.owns .idle) := by
  refine ⟨⟨trivial, rfl⟩, fun prepared p₁ h₁ => ?_⟩
  obtain rfl := h₁
  cases prepared with
  | error e => rfl
  | ok _ =>
      refine ⟨⟨trivial, rfl⟩, fun asked p₂ h₂ => ?_⟩
      obtain rfl := h₂
      apply Prog.wp_seq (ask_codes_wp asked)
      rintro - _ rfl
      exact working_wp (Apple.finish_login_uses (working_job rfl) (working_job rfl))

theorem run_login_wp (apple_id password : Str) (save : Bool) :
    (run_login ext apple_id password save).wp (attending.restrict InBody)
      (fun _ p' => p' = .owns .idle) (.owns .idle) := by
  have hsign : (sign_in apple_id password save).wp (attending.restrict InBody)
      (fun _ p' => p' = .owns .idle) (.owns .idle) := by
    rw [sign_in_eq]
    apply Prog.wp_seq (open_session_web_wp apple_id password)
    rintro opened _ rfl
    exact working_wp (after_session_uses apple_id password save (working_job rfl)
      (fun _ => working_job rfl) opened)
  apply Prog.wp_seq hsign
  rintro outcome _ rfl
  exact ⟨⟨trivial, rfl⟩, fun _ _ h => h⟩

theorem run_job_attends (app : App) (job : Job) :
    (run_job ext app job).wp (attending.restrict InBody) (fun _ p' => p' = .owns .idle) (.owns .idle) := by
  cases job with
  | check => exact working_wp (run_check_uses (fun _ => working_job) app fun f _ => working_write f)
  | renew force => exact working_wp (run_renew_working app force)
  | login apple_id password save => exact run_login_wp apple_id password save

-- A job that a panic stops is not in a request, so that it always ends where it began.
theorem job_thread_attends (app : App) (job : Job) :
    (job_thread ext app job).wp attending (fun _ p' => p' = .visits) (.owns .idle) := by
  have hbody : ((run_job ext app job).interruptible .panicked id).wp (attending.restrict InBody)
      (fun a p' => (∃ stage, p' = .owns stage) ∧ (a = none → ∀ stage, p' = .owns stage → stage = .idle) ∧
        ∀ b, a = some b → p' = .owns .idle) (.owns .idle) := by
    apply Prog.wp_interruptible (c := .panicked) id ?_ ?_ ⟨.idle, rfl⟩ (run_job_attends app job)
    · exact fun p _ => ⟨⟨trivial, rfl⟩, fun struck p' h => h⟩
    · rintro p c r p' hp ⟨hc, hcbody⟩ hstep
      exact owns_step hp hc hcbody hstep
  apply Prog.wp_seq (Prog.wp_of_restrict hbody)
  rintro result p' ⟨⟨stage, rfl⟩, hhalt, hpost⟩
  have hidle : stage = .idle := by
    cases result with
    | none => exact hhalt rfl stage rfl
    | some b => exact Place.owns.inj (hpost b rfl)
  rw [hidle]
  have hpanic : (do
      ask .unwind
      ask (.write_inner after_panic)
      ask .drop_guard : Act Unit).wp attending (fun _ p' => p' = .visits) (.owns .idle) := by
    refine ⟨trivial, fun _ p₁ h₁ => ?_⟩
    obtain rfl := h₁
    refine ⟨trivial, fun _ p₂ h₂ => ?_⟩
    obtain rfl := h₂
    exact ⟨rfl, fun _ _ h => h⟩
  rcases result with _ | _ | _
  · exact hpanic
  · exact hpanic
  · exact ⟨rfl, fun _ _ h => h⟩

theorem page_away {c : Cmd} (hc : c.page_work = true) : c.at_desk = false := by
  cases c <;> first | rfl | exact nomatch hc

theorem give_answer_attends (a : TfaAnswer) :
    (give_answer a).wp attending (fun _ p' => p' = .visits) .visits := by
  have hanswer : (answer a).wp attending (fun _ p' => p' = .visits) .visits := by
    refine ⟨.inl rfl, fun taken p₁ h₁ => ?_⟩
    obtain rfl := h₁
    cases taken with
    | none => rfl
    | some tx => exact ⟨rfl, fun _ _ h => h⟩
  apply Prog.wp_seq hanswer
  rintro delivered _ rfl
  split
  · exact away_wp (json_ok_uses fun _ _ => rfl)
  · exact away_wp (json_err_uses (fun _ _ => rfl) _ _)

-- What a visitor of the page calls besides the desk.
def Visiting (c : Cmd) : Prop := c.at_desk = false ∨ ∃ job, c = .spawn job

theorem visiting_wp {α : Type} {prog : Act α} (h : prog.Uses Visiting) :
    prog.wp attending (fun _ p' => p' = .visits) .visits := by
  apply Prog.wp_of_uses h
  rintro c (hc | ⟨job, rfl⟩)
  · exact attending_away hc
  · exact ⟨rfl, fun _ _ h => h⟩

theorem handle_attends (req : HttpRequest) :
    (handle ext req).wp attending (fun _ p' => p' = .visits) .visits := by
  have hwork : ∀ c : Cmd, c.page_work = true → Visiting c := fun c hc => .inl (page_away hc)
  have hwrite : ∀ f, Visiting (.write_inner f) := fun f => .inl rfl
  have hspawn : ∀ job, Visiting (.spawn job) := fun job => .inr ⟨job, rfl⟩
  have hstart : start_checking.Uses Visiting := ⟨hwrite _, fun _ => trivial⟩
  cases req with
  | state => exact visiting_wp (state_uses hwork hstart (hspawn .check))
  | check => exact visiting_wp (check_uses hwork hstart (hspawn .check))
  | renew mode => exact visiting_wp (renew_uses hwork mode hwrite hspawn)
  | login apple_id password save =>
      exact visiting_wp (login_uses hwork apple_id password save (fun f _ => hwrite f) fun _ => hspawn _)
  | login_code code =>
      unfold handle login_code
      dsimp only
      split
      · exact visiting_wp (json_err_uses (fun _ _ => hwork _ rfl) _ _)
      · exact give_answer_attends _
  | login_resend => exact give_answer_attends .resend

end Web

theorem connection_thread_attends (ctx : AltServer.Ctx) (fuel : Nat) :
    (connection_thread ext ctx fuel).wp attending (fun _ p' => p' = .visits) .visits := by
  have hserves : ∀ c : Cmd, c.serves = true → c.at_desk = false := by
    intro c hc
    cases c <;> first | rfl | exact nomatch hc
  apply away_wp
  apply Prog.Uses.bind ((AltServer.handle_connection_uses hserves (fun _ => rfl) fuel).interruptible rfl)
  exact fun _ => ⟨rfl, fun _ => trivial⟩

theorem launched_attends {addr : Option SocketAddr} {i : Tid} {w w' : World} {prog : Act Unit}
    (hi : ∀ n, i ≠ .job n) (h : launched ext addr i w prog w') :
    prog.wp attending (fun _ p' => p' = .visits) .visits := by
  cases i with
  | conn n =>
      obtain ⟨fuel, rfl, -⟩ := h
      exact connection_thread_attends ⟨addr⟩ fuel
  | http n =>
      obtain ⟨req, rfl, -⟩ := h
      exact Web.handle_attends req
  | job n => exact absurd rfl (hi n)

end Threads

section Steps

variable {ext : Ext} {uuid : Octets → Str} {addr : Option SocketAddr} {w w' : World} {log : Log}
  {p : Tid → Local} {places : Tid → Place} {stage : Desk.Stage TfaAnswer} {i : Tid} {c : Cmd} {r : Resp c}

-- The desk that the threads and the state shared with the page amount to.
def desk (tfa : TfaState) (log : Log) (places : Tid → Place) (stage : Desk.Stage TfaAnswer) :
    Desk TfaAnswer Tid where
  stage
  raised := tfa.asking
  slot := tfa.sender
  count := tfa.senders
  held := Place.held ∘ places
  log

-- Only the job with the guard is behind the desk, and somebody is while a request is open.
structure Attended (p : Tid → Local) (places : Tid → Place) (stage : Desk.Stage TfaAnswer) : Prop where
  owner : ∀ i s, places i = .owns s → s = stage ∧ (p i).guard.isSome = true ∧ ∃ n, i = .job n
  attended : stage ≠ .idle → ∃ i, places i = .owns stage

theorem desk_held {tfa : TfaState} {place : Place} :
    desk tfa log (Function.update places i place) stage =
      { desk tfa log places stage with held := Function.update (Place.held ∘ places) i place.held } := by
  unfold desk
  rw [Function.comp_update]

-- A change of place that takes no sender and gives none.
theorem desk_update {tfa : TfaState} {place : Place} (h : place.held = (places i).held) :
    desk tfa log (Function.update places i place) stage = desk tfa log places stage := by
  rw [desk_held, h]
  exact congrArg (fun held => { desk tfa log places stage with held })
    (Function.update_eq_self i (Place.held ∘ places))

namespace Attended

-- Whoever is behind the desk has the guard, so nobody else is.
theorem only {t : Desk.Stage TfaAnswer} (h : Attended p places stage) (ht : Tied w.res p)
    (hguard : (p i).guard.isSome = true) {j : Tid} (hj : places j = .owns t) : j = i := by
  by_contra hji
  have hother := ht.guarded.guard_of_ne hguard hji
  rw [(h.owner j t hj).2.1] at hother
  cases hother

-- The job behind the desk goes on.
theorem goes_on {l : Local} {s s' : Desk.Stage TfaAnswer} (h : Attended p places stage)
    (ht : Tied w.res p) (hi : places i = .owns s) (hl : l.guard.isSome = (p i).guard.isSome) :
    Attended (Function.update p i l) (Function.update places i (.owns s')) s' := by
  obtain ⟨-, hguard, hjob⟩ := h.owner i s hi
  constructor
  · intro j t hj
    by_cases hji : j = i
    · subst hji
      rw [Function.update_self] at hj ⊢
      exact ⟨(Place.owns.inj hj).symm, hl.trans hguard, hjob⟩
    · rw [Function.update_of_ne hji] at hj
      exact absurd (h.only ht hguard hj) hji
  · exact fun _ => ⟨i, Function.update_self i _ places⟩

-- A thread that is not behind the desk, and does not get there, leaves who is.
theorem visit {l : Local} {place : Place} (h : Attended p places stage)
    (hi : ∀ s, places i ≠ .owns s) (hplace : ∀ s, place ≠ .owns s) :
    Attended (Function.update p i l) (Function.update places i place) stage := by
  constructor
  · intro j t hj
    by_cases hji : j = i
    · rw [hji, Function.update_self] at hj
      exact absurd hj (hplace t)
    · rw [Function.update_of_ne hji] at hj ⊢
      exact h.owner j t hj
  · intro hstage
    obtain ⟨j, hj⟩ := h.attended hstage
    refine ⟨j, ?_⟩
    rwa [Function.update_of_ne fun hji : j = i => hi stage (hji ▸ hj)]

-- A thread that keeps its place keeps the guard, if it is behind the desk.
theorem stays {l : Local} (h : Attended p places stage)
    (hl : ∀ s, places i = .owns s → l.guard.isSome = (p i).guard.isSome) :
    Attended (Function.update p i l) (Function.update places i (places i)) stage := by
  rw [Function.update_eq_self]
  refine ⟨fun j t hj => ?_, h.attended⟩
  obtain ⟨ht, hguard, hjob⟩ := h.owner j t hj
  refine ⟨ht, ?_, hjob⟩
  by_cases hji : j = i
  · subst hji
    rw [Function.update_self, hl t hj]
    exact hguard
  · rwa [Function.update_of_ne hji]

-- A job gives its guard back with no request open.
theorem leave {l : Local} (h : Attended p places stage) (ht : Tied w.res p)
    (hi : places i = .owns .idle) :
    Attended (Function.update p i l) (Function.update places i .visits) stage := by
  obtain ⟨hstage, hguard, -⟩ := h.owner i .idle hi
  constructor
  · intro j t hj
    by_cases hji : j = i
    · rw [hji, Function.update_self] at hj
      cases hj
    · rw [Function.update_of_ne hji] at hj
      exact absurd (h.only ht hguard hj) hji
  · exact fun hopen => absurd hstage.symm hopen

-- A job begins: it had the guard while it waited, so that nobody was behind the desk.
theorem begin {n : Nat} {job : Job} {l : Local} (h : Attended p places stage) (ht : Tied w.res p)
    (hjob : (n, job) ∈ w.res.pending) (hl : l.guard.isSome = true) :
    stage = .idle ∧
      Attended (Function.update p (.job n) l) (Function.update places (.job n) (.owns .idle)) stage := by
  have hnobody : ∀ j s, places j ≠ .owns s := by
    intro j s hj
    have hpending := ht.guarded.none_waits (h.owner j s hj).2.1
    rw [hpending] at hjob
    cases hjob
  have hidle : stage = .idle := by
    by_contra hopen
    obtain ⟨j, hj⟩ := h.attended hopen
    exact hnobody j stage hj
  refine ⟨hidle, fun j t hj => ?_, fun hopen => absurd hidle hopen⟩
  by_cases hji : j = .job n
  · subst hji
    rw [Function.update_self] at hj ⊢
    exact ⟨(Place.owns.inj hj).symm.trans hidle.symm, hl, n, rfl⟩
  · rw [Function.update_of_ne hji] at hj
    exact absurd hj (hnobody j t)

end Attended

-- Away from the desk nothing happens to it.
theorem effect_tfa (hc : c.at_desk = false) (h : effect uuid i w c r w') :
    w'.tfa.asking = w.tfa.asking ∧ w'.tfa.sender = w.tfa.sender ∧ w'.tfa.senders = w.tfa.senders := by
  cases c with
  | connect a =>
      cases r <;>
      · obtain rfl := h
        exact ⟨rfl, rfl, rfl⟩
  | copy_all =>
      cases r with
      | ok raw =>
          obtain ⟨-, rfl⟩ := h
          exact ⟨rfl, rfl, rfl⟩
      | error e =>
          obtain rfl := h
          exact ⟨rfl, rfl, rfl⟩
  | install blob =>
      obtain ⟨phone, -, rfl⟩ := h
      exact ⟨rfl, rfl, rfl⟩
  | remove u =>
      obtain ⟨phone, -, rfl⟩ := h
      exact ⟨rfl, rfl, rfl⟩
  | try_busy =>
      obtain ⟨-, rfl⟩ := h
      split <;> exact ⟨rfl, rfl, rfl⟩
  | _ => first
    | (obtain rfl := h; exact ⟨rfl, rfl, rfl⟩)
    | (obtain ⟨-, rfl⟩ := h; exact ⟨rfl, rfl, rfl⟩)
    | exact nomatch hc

-- Every call is a move at the desk, or nothing to it.
theorem call_moves (hsound : Desk.Sound (desk w.tfa log places stage)) (h : Attended p places stage)
    (ht : Tied w.res p) (hc : (p i).Allows ext c) (hv : (places i).Allows c)
    (hshot : Oneshot log c r) (hunbroken : Unbroken log i c r) (heffect : effect uuid i w c r w') :
    ∃ place stage', (places i).Step c r place ∧
      (desk w'.tfa (note log (.call i ⟨c, r⟩)) (Function.update places i place) stage' =
          desk w.tfa log places stage ∨
        Desk.Move (desk w.tfa log places stage)
          (desk w'.tfa (note log (.call i ⟨c, r⟩)) (Function.update places i place) stage')) ∧
      Attended (Function.update p i ((p i).advance c r)) (Function.update places i place) stage' := by
  cases c with
  | publish_sender =>
      have hi : places i = .owns .idle := hv
      obtain ⟨rfl, rfl⟩ := heffect
      refine ⟨.owns (.published _), _, by rw [hi]; rfl, .inr ?_, h.goes_on ht hi rfl⟩
      rw [desk_update (by rw [hi]; rfl)]
      exact .publish (h.owner i _ hi).1.symm
  | store_asking asking =>
      obtain rfl := heffect
      rcases hv with ⟨rfl, rx, hi⟩ | ⟨rfl, rx, answer, hi⟩
      · refine ⟨.owns (.asking rx), _, by rw [hi]; rfl, .inr ?_, h.goes_on ht hi rfl⟩
        rw [desk_update (by rw [hi]; rfl)]
        exact .raise (h.owner i _ hi).1.symm
      · refine ⟨.owns (.lowered rx answer), _, by rw [hi]; rfl, .inr ?_, h.goes_on ht hi rfl⟩
        rw [desk_update (by rw [hi]; rfl)]
        exact .lower (h.owner i _ hi).1.symm
  | wait_answer rx =>
      have hi : places i = .owns (.asking rx) := hv
      obtain rfl := heffect
      refine ⟨.owns (.answered rx r), _, by rw [hi]; rfl, .inr ?_, h.goes_on ht hi rfl⟩
      rw [desk_update (by rw [hi]; rfl)]
      exact .receive (h.owner i _ hi).1.symm hshot
  | take_sender =>
      obtain ⟨rfl, rfl⟩ := heffect
      rcases hv with hi | ⟨rx, answer, hi⟩
      · have haway : ∀ s, places i ≠ .owns s := by
          rw [hi]
          exact visits_ne_owns
        cases hsender : w.tfa.sender with
        | none =>
            refine ⟨.visits, stage, by rw [hi]; rfl, .inl ?_, h.visit haway visits_ne_owns⟩
            rw [desk_update (by rw [hi]), desk, desk, hsender]
            rfl
        | some tx =>
            refine ⟨.holds tx, stage, by rw [hi]; rfl, .inr ?_, h.visit haway (holds_ne_owns tx)⟩
            rw [desk_held]
            exact .take hsender (congrArg Place.held hi)
      · refine ⟨.owns (.cleared rx answer), _, by rw [hi]; rfl, .inr ?_, h.goes_on ht hi rfl⟩
        rw [desk_update (by rw [hi]; rfl)]
        exact .clear (h.owner i _ hi).1.symm
  | send_answer tx a =>
      have hi : places i = .holds tx := hv
      obtain rfl := heffect
      have haway : ∀ s, places i ≠ .owns s := by
        rw [hi]
        exact holds_ne_owns tx
      refine ⟨.visits, stage, rfl, .inr ?_, h.visit haway visits_ne_owns⟩
      rw [desk_held]
      exact .send (congrArg Place.held hi) hshot
  | answer_login answer =>
      obtain rfl := heffect
      rcases hv with hi | ⟨rx, hi⟩
      · have hstage := (h.owner i _ hi).1
        have hpending : log.pending = none := by
          have hrequest := hsound.requests.pending
          rwa [← hstage] at hrequest
        refine ⟨.owns .idle, _, rfl, .inl ?_, h.goes_on ht hi rfl⟩
        rw [desk_update (by rw [hi]), ← hstage]
        exact congrArg (desk _ · places .idle) (Desk.give_of_none hpending)
      · refine ⟨.owns .idle, _, rfl, .inr ?_, h.goes_on ht hi rfl⟩
        rw [desk_update (by rw [hi]; rfl)]
        exact .give (h.owner i _ hi).1.symm
  | drop_guard =>
      have hi : places i = .owns .idle := hv
      obtain rfl := heffect
      refine ⟨.visits, stage, rfl, .inl ?_, h.leave ht hi⟩
      exact desk_update (by rw [hi]; rfl)
  | spawn job =>
      have hi : places i = .visits := hv
      obtain rfl := heffect
      refine ⟨.visits, stage, hi.symm, .inl ?_, h.visit ?_ visits_ne_owns⟩
      · exact desk_update (by rw [hi])
      · rw [hi]
        exact visits_ne_owns
  | panicked =>
      obtain rfl := heffect
      refine ⟨places i, stage, ⟨rfl, fun hstruck s hs => ?_⟩, .inl ?_, h.stays fun _ _ => rfl⟩
      · obtain ⟨rfl, -, hjob⟩ := h.owner i s hs
        have hrequest := hsound.requests.pending.symm.trans (hunbroken hjob hstruck)
        exact Desk.Stage.request_eq_none.mp hrequest
      · rw [Function.update_eq_self]
        rfl
  | try_busy =>
      obtain ⟨hasking, hsender, hsenders⟩ := effect_tfa rfl heffect
      refine ⟨places i, stage, rfl, .inl ?_, h.stays fun s hs => ?_⟩
      · rw [Function.update_eq_self, desk, hasking, hsender, hsenders]
        rfl
      · have hguard := (h.owner i s hs).2.1
        rw [hc.2] at hguard
        cases hguard
  | _ =>
      obtain ⟨hasking, hsender, hsenders⟩ := effect_tfa rfl heffect
      refine ⟨places i, stage, rfl, .inl ?_, h.stays fun s hs => advance_guard_isSome rfl⟩
      rw [Function.update_eq_self, desk, hasking, hsender, hsenders]
      rfl

-- A thread that starts does nothing at the desk; a job goes behind it.
theorem start_attends {prog : Act Unit} (hsound : Desk.Sound (desk w.tfa log places stage))
    (h : Attended p places stage) (ht : Tied w.res p) (hidle : (p i).Idle) (hi : places i = .visits)
    (hp : launched ext addr i w prog w') :
    ∃ l place, prog.wp (conduct ext) (fun _ l => l.Idle) l ∧
      prog.wp attending (fun _ p' => p' = .visits) place ∧ Tied w'.res (Function.update p i l) ∧
      Desk.Sound (desk w'.tfa log (Function.update places i place) stage) ∧
      Attended (Function.update p i l) (Function.update places i place) stage := by
  rcases launched_conducts (ht.is_conn i) hidle hp with
    ⟨hjob, rfl, hwp⟩ | ⟨n, job, rfl, hjob, rfl, rfl, hwp⟩
  · refine ⟨p i, .visits, hwp, launched_attends hjob hp, ?_⟩
    rw [← hi, Function.update_eq_self, Function.update_eq_self]
    exact ⟨ht, hsound, h⟩
  · refine ⟨_, .owns .idle, hwp, Web.job_thread_attends ⟨addr⟩ job, ht.begin hidle hjob, ?_, ?_⟩
    · rw [desk_update (by rw [hi]; rfl)]
      exact hsound
    · exact (h.begin ht hjob rfl).2

-- The threads and the desk in agreement, with the record of the steps so far.
def AtDesk (w : World × Log) (q : Tid → Local × Place) : Prop :=
  Tied w.1.res (Prod.fst ∘ q) ∧ ∃ stage, Desk.Sound (desk w.1.tfa w.2 (Prod.snd ∘ q) stage) ∧
    Attended (Prod.fst ∘ q) (Prod.snd ∘ q) stage

theorem codes_modular : Threads.Modular ((process ext uuid addr).noting note)
    ((conduct ext).prod attending) (fun i w c r => Oneshot w.2 c r ∧ Unbroken w.2 i c r) AtDesk
    (fun s => s.1.Idle ∧ s.2 = .visits) where
  call {i w q c r w'} h hc hok heffect := by
    obtain ⟨ht, stage, hsound, hattended⟩ := h
    obtain ⟨heffect, hnote⟩ := heffect
    obtain ⟨place, stage', hstep, hdesk, hattended'⟩ :=
      call_moves hsound hattended ht hc.1 hc.2 hok.1 hok.2 heffect
    refine ⟨((q i).1.advance c r, place), ⟨rfl, hstep⟩, ?_, stage', ?_, ?_⟩
    · rw [Function.comp_update]
      exact ht.call hc.1 heffect
    · rw [Function.comp_update, hnote]
      rcases hdesk with hsame | hmove
      · exact hsame ▸ hsound
      · exact hsound.move hmove
    · rw [Function.comp_update, Function.comp_update]
      exact hattended'
  start {i w q prog w'} h hfinal hp := by
    obtain ⟨ht, stage, hsound, hattended⟩ := h
    obtain ⟨hp, hnote⟩ := hp
    obtain ⟨l, place, hwp, hplace, ht', hsound', hattended'⟩ :=
      start_attends hsound hattended ht hfinal.1 hfinal.2 hp
    refine ⟨(l, place), Prog.wp_prod hwp hplace, ?_, stage, ?_, ?_⟩
    · rw [Function.comp_update]
      exact ht'
    · rw [Function.comp_update, hnote]
      exact hsound'
    · rw [Function.comp_update, Function.comp_update]
      exact hattended'

end Steps

section Runs

variable {ext : Ext} {uuid : Octets → Str} {addr : Option SocketAddr} {phone : List Octets}

-- The channels behave in this run as tokio says.
def OneshotRun : List Step → Prop :=
  Threads.Throughout (fun log w label => label.Meets (fun _ _ c r => Oneshot log c r) w) note {}

-- No request for a code is cut short in this run.
def UnbrokenRun : List Step → Prop :=
  Threads.Throughout (fun log w label => label.Meets (fun i _ c r => Unbroken log i c r) w) note {}

-- Answers are neither lost nor duplicated, each reaches the request in progress when it was
-- sent, and with no request in progress the page is not asked for one.
structure Answered (steps : List Step) (cfg : Threads.Config Tid World Resp) : Prop where
  delivered : Desk.Delivered (history steps)
  in_progress : ∀ first t rest i tx a, steps = first ++ t :: rest →
    t.label = .call i ⟨.send_answer tx a, true⟩ → (history first).pending = some tx
  quiet : (history steps).pending = none → cfg.world.tfa.asking = false ∧ cfg.world.tfa.sender = none

abbrev Attending (ext : Ext) (cfg : Threads.Config Tid World Resp) (log : Log) : Prop :=
  Threads.Conforms ((conduct ext).prod attending) AtDesk (fun s => s.1.Idle ∧ s.2 = .visits)
    (cfg.noted log)

theorem initial_attending (phone : List Octets) : Attending ext (initial phone) {} := by
  refine ⟨fun i => (fresh i, .visits), ⟨fresh_tied, .idle, Desk.sound_init, ?_⟩, ?_⟩
  · exact ⟨(fun _ _ h => nomatch h), fun h => absurd rfl h⟩
  · exact fun _ => ⟨⟨rfl, rfl, rfl⟩, rfl⟩

theorem run_attending {steps : List Step} {cfg : Threads.Config Tid World Resp}
    (run : Run ext uuid addr phone steps cfg) (hshot : OneshotRun steps)
    (hunbroken : UnbrokenRun steps) : Attending ext cfg (history steps) := by
  refine codes_modular.recorded (initial_attending phone) run fun first t rest hsplit => ?_
  have hshot' := hshot first t rest hsplit
  have hunbroken' := hunbroken first t rest hsplit
  revert hshot' hunbroken'
  cases t.label with
  | call i e => exact fun h h' => ⟨h, h'⟩
  | start i => exact fun _ _ => trivial

theorem codes_answered {steps : List Step} {cfg : Threads.Config Tid World Resp}
    (run : Run ext uuid addr phone steps cfg) (hshot : OneshotRun steps)
    (hunbroken : UnbrokenRun steps) : Answered steps cfg := by
  obtain ⟨q, ⟨-, stage, hsound, -⟩, -⟩ := run_attending run hshot hunbroken
  refine ⟨hsound.delivered, ?_, hsound.quiet⟩
  rintro first ⟨before, label, after⟩ rest i tx a rfl hlabel
  obtain rfl : label = .call i ⟨.send_answer tx a, true⟩ := hlabel
  obtain ⟨q', ⟨-, stage', hsound', -⟩, hthreads⟩ :=
    run_attending run.upto hshot.before hunbroken.before
  have hstep : Threads.Step (process ext uuid addr) (.call i ⟨.send_answer tx a, true⟩) before after :=
    run.step_mem _ (List.mem_append_right first List.mem_cons_self)
  have hholds : (q' i).2 = .holds tx := (hstep.allows (hthreads i)).2
  have hthere : tx ∉ (history first).dropped := (hshot first _ rest rfl).mp rfl
  exact hsound'.accepts (congrArg Place.held hholds) hthere

section Sample

-- A test of a step that leaves both to be true.
def fair (log : Log) : Threads.Label Tid Resp → Bool
  | .call _ ⟨.send_answer tx _, ok⟩ => ok == decide (tx ∉ log.dropped)
  | .call _ ⟨.wait_answer rx, answer⟩ => log.carries rx answer
  | .call _ ⟨.panicked, struck⟩ => !struck
  | _ => true

theorem fair_meets {log : Log} {w : World} {label : Threads.Label Tid Resp} (h : fair log label = true) :
    label.Meets (fun _ _ c r => Oneshot log c r) w ∧ label.Meets (fun i _ c r => Unbroken log i c r) w := by
  rcases label with ⟨i, c, r⟩ | i
  · cases c with
    | send_answer tx a =>
        have hok : r = decide (tx ∉ log.dropped) := eq_of_beq h
        exact ⟨by rw [hok]; exact decide_eq_true_iff, trivial⟩
    | wait_answer rx => exact ⟨Desk.carries_of h, trivial⟩
    | panicked =>
        refine ⟨trivial, fun _ hstruck => ?_⟩
        rw [hstruck] at h
        cases h
    | _ => exact ⟨trivial, trivial⟩
  · exact ⟨trivial, trivial⟩

def six_digits : Str := "123456".toList

-- A login that is asked for two codes: the first is given, the second comes too late.
def coded : (c : Cmd) → Resp c
  | .prepare_state => .ok ()
  | .begin_login _ _ => [none, none]
  | .send_answer tx _ => decide (tx = 0)
  | .wait_answer rx => if rx = 0 then some (.code six_digits) else none
  | c => silent c

def two_codes : List (Tid × Option Key) :=
  starts (.http 0) (.page (.login "a@b.c".toList "p".toList true)) 5 ++ starts (.job 0) .begin 11 ++
    starts (.http 1) (.page (.login_code six_digits)) 3 ++ List.replicate 15 (.job 0, none) ++
    starts (.http 2) (.page .login_resend) 1 ++ List.replicate 12 (.job 0, none) ++
    List.replicate 2 (.http 2, none)

theorem codes_answered_twice : ∃ steps cfg, Run sample (fun _ => []) none [] steps cfg ∧
    (history steps).returned = [(1, none), (0, some (.code six_digits))] ∧ Answered steps cfg := by
  have hplay : ((player sample (fun _ => []) none fun _ => coded).replay note fair two_codes {}
      (initial [])).any
      (fun e => decide (e.1.returned = [(1, none), (0, some (.code six_digits))])) = true := by
    decide +kernel
  obtain ⟨⟨log, cfg⟩, hreplay, hreturned⟩ := (Option.any_eq_true _ _).mp hplay
  obtain ⟨steps, run, hfair, rfl⟩ := Threads.Player.replay_run _ .nil
    (fun first t rest hsplit => by simp at hsplit) hreplay
  refine ⟨steps, cfg, run, of_decide_eq_true hreturned, codes_answered run ?_ ?_⟩
  · exact fun first t rest hsplit => (fair_meets (hfair first t rest hsplit)).1
  · exact fun first t rest hsplit => (fair_meets (hfair first t rest hsplit)).2

end Sample

end Runs

end AltKeeper
