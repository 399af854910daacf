import AltKeeper.AltServer.Operations
import AltKeeper.Process.Markers
import AltKeeper.Web.Calls

-- The view of the job on the page: what it shows of the last renewal.
namespace AltKeeper

section View

-- What a handler puts on the page as it starts a renewal.
def Web.renewal_started (force : Bool) (g : Inner) : Inner := { g with job := {
  kind := if force then .renew_all else .renew_due
  running := true
  lines := []
  ok := none } }

-- A renewal was started, and the page shows its end.
def Finished (g : Inner) : Prop := g.job.kind ≠ .none ∧ g.job.running = false

instance {g : Inner} : Decidable (Finished g) :=
  inferInstanceAs (Decidable (g.job.kind ≠ .none ∧ g.job.running = false))

-- What a write does to the view when it neither starts a renewal nor reports a panic.
structure Tame (g g' : Inner) : Prop where
  bound : g.job.lines.length ≤ Web.MAX_JOB_LINES → g'.job.lines.length ≤ Web.MAX_JOB_LINES
  frozen : g.job.running = false → g'.job = g.job

theorem Tame.of_job {g g' : Inner} (h : g'.job = g.job) : Tame g g' :=
  ⟨fun hbound => by rwa [h], fun _ => h⟩

theorem Web.length_push {lines : List Str} (s : Str) (h : lines.length ≤ MAX_JOB_LINES) :
    (push lines s).length ≤ MAX_JOB_LINES := by
  unfold push
  dsimp only
  split
  · simp only [List.length_tail, List.length_append, List.length_singleton]
    omega
  · omega

theorem Web.length_after_panic (g : Inner) :
    (after_panic g).job.lines.length = g.job.lines.length + 1 := List.length_append

def Job.is_renewal : Job → Bool
  | .renew _ => true
  | _ => false

-- What a thread that is a renewal at work knows of the page.
def Knows (renewing : Bool) (g : Inner) : Prop := renewing = true → g.job.running = true

def Renewing.Allows (renewing : Bool) : Cmd → Prop
  | .write_inner f =>
      (∃ force, f = Web.renewal_started force) ∨ f = Web.after_panic ∨
        ∀ g, Knows renewing g → Tame g (f g)
  | .spawn job => job.is_renewal = true → renewing = true
  | _ => True

def Renewing.Step (renewing : Bool) : (c : Cmd) → Resp c → Bool → Prop
  | .write_inner f, _, renewing' =>
      renewing' = true ↔ ∀ g, Knows renewing g → (f g).job.running = true
  | .try_busy, _, renewing' => renewing' = false
  | .drop_guard, _, renewing' => renewing' = false
  | .spawn _, _, renewing' => renewing' = false
  | _, _, renewing' => renewing' = renewing

-- The state of a thread: whether it is a renewal at work.
def viewing : Prog.Protocol Resp Bool where
  allows := Renewing.Allows
  step := Renewing.Step

end View

section Threads

variable {ext : Ext} {renewing : Bool}

-- The commands that have nothing to do with the guard or the page leave a thread as it is.
theorem viewing_plain {c : Cmd} (hc : c.guarded = false) :
    viewing.allows renewing c ∧ ∀ r s', viewing.step renewing c r s' → s' = renewing := by
  cases c <;> first | exact ⟨trivial, fun _ _ h => h⟩ | exact nomatch hc

-- What any thread may call, a renewal or not.
def Anytime (c : Cmd) : Prop := ∀ renewing, Renewing.Allows renewing c

theorem anytime_wp {α : Type} {p : Act α} (hp : p.Uses Anytime) :
    p.wp viewing (fun _ _ => True) renewing :=
  Prog.wp_of_uses_keep hp (fun s _ _ hc => ⟨hc s, fun _ _ _ => trivial⟩) trivial

theorem anytime_write {f : Inner → Inner} (hf : ∀ g, (f g).job = g.job) : Anytime (.write_inner f) :=
  fun _ => .inr (.inr fun g _ => .of_job (hf g))

theorem anytime_work {c : Cmd} (hc : c.job_work = true) : Anytime c := by
  cases c <;> first | exact fun _ => trivial | exact nomatch hc

theorem anytime_page {c : Cmd} (hc : c.page_work = true) : Anytime c := by
  cases c <;> first | exact fun _ => trivial | exact nomatch hc

theorem anytime_code {c : Cmd} (hc : c.asks_code = true) : Anytime c := by
  cases c <;> first | exact fun _ => trivial | exact nomatch hc

theorem anytime_login {c : Cmd} (hc : c.logs_in = true) : Anytime c := by
  cases c <;> first | exact fun _ => trivial | exact nomatch hc

theorem anytime_serves {c : Cmd} (hc : c.serves = true) : Anytime c := by
  cases c <;> first | exact fun _ => trivial | exact nomatch hc

namespace Web

-- What a renewal calls as long as it is at work.
def Saying (c : Cmd) : Prop :=
  c.guarded = false ∨
    ∃ line, c = .write_inner fun g => { g with job := { g.job with lines := push g.job.lines line } }

theorem saying_wp {α : Type} {p : Act α} (hp : p.Uses Saying) :
    p.wp viewing (fun _ s => s = true) true := by
  apply Prog.wp_of_uses_keep hp
  · rintro s c rfl hc
    rcases hc with hc | ⟨line, rfl⟩
    · exact viewing_plain hc
    · constructor
      · refine .inr (.inr fun g hg => ⟨fun h => length_push line h, fun hidle => ?_⟩)
        rw [hg rfl] at hidle
        cases hidle
      · intro _ s' h
        exact h.mpr fun g hg => hg rfl
  · rfl

theorem push_line_saying (line : Str) : (push_line line).Uses Saying :=
  ⟨.inr ⟨line, rfl⟩, fun _ => trivial⟩

theorem renewed_wp (app : App) (ok : Bool) :
    (renewed ext app ok).wp viewing (fun _ _ => True) true := by
  refine ⟨.inr (.inr fun g hg => ⟨id, fun hidle => ?_⟩), fun _ s' _ => ?_⟩
  · rw [hg rfl] at hidle
    cases hidle
  · exact anytime_wp (after_renewed_uses (fun c => anytime_work) app (fun f => anytime_write) ok)

theorem run_renew_wp (app : App) (force : Bool) :
    (run_renew ext app force).wp viewing (fun _ _ => True) true := by
  have hcalls : ∀ c : Cmd, c.renewal = true → Saying c := by
    intro c hc
    left
    cases c <;> first | rfl | exact nomatch hc
  apply Prog.wp_seq (saying_wp (cmd_renew_uses push_line_saying hcalls app.phone false force RENEW_MIN_DAYS))
  rintro result s rfl
  rcases result with (e | _) | _
  · apply Prog.wp_seq (saying_wp (push_line_saying _))
    rintro _ s rfl
    exact renewed_wp app false
  · trivial
  · exact renewed_wp app true

theorem run_job_wp (app : App) (job : Job) :
    (run_job ext app job).wp viewing (fun _ _ => True) job.is_renewal := by
  cases job with
  | check => exact anytime_wp (run_check_uses (fun c => anytime_work) app fun f => anytime_write)
  | renew force => exact run_renew_wp app force
  | login apple_id password save =>
      exact anytime_wp (run_login_uses apple_id password save (fun c => anytime_code)
        (fun c => anytime_login) (anytime_work rfl) (fun _ => anytime_work rfl) fun f => anytime_write)

theorem job_thread_wp (app : App) (job : Job) :
    (job_thread ext app job).wp viewing (fun _ _ => True) job.is_renewal := by
  have hbody : ((run_job ext app job).interruptible .panicked id).wp viewing
      (fun a _ => True ∧ (a = none → True) ∧ ∀ b, a = some b → True) job.is_renewal :=
    Prog.wp_interruptible (c := .panicked) id
      (fun s _ => ⟨trivial, fun r s' h => ⟨h, fun _ => trivial⟩⟩)
      (fun _ _ _ _ _ _ _ => trivial) trivial (run_job_wp app job)
  apply Prog.wp_seq hbody
  intro result s _
  have hpanic : (do
      ask .unwind
      ask (.write_inner after_panic)
      ask .drop_guard : Act Unit).wp viewing (fun _ _ => True) s := by
    refine ⟨trivial, fun _ s₁ _ => ⟨.inr (.inl rfl), fun _ s₂ _ => ?_⟩⟩
    exact ⟨trivial, fun _ _ _ => trivial⟩
  rcases result with _ | _ | _
  · exact hpanic
  · exact hpanic
  · exact ⟨trivial, fun _ _ _ => trivial⟩

theorem renew_wp (mode : Str) : (renew ext mode).wp viewing (fun _ _ => True) renewing := by
  unfold renew
  split
  · exact anytime_wp (json_err_uses (fun _ _ => anytime_page rfl) _ _)
  · rename_i force _
    apply Prog.wp_seq (anytime_wp (Apple.read_account_uses fun _ => trivial))
    intro account s _
    split
    · refine ⟨trivial, fun taken s₁ _ => ?_⟩
      cases taken with
      | false => exact anytime_wp (json_err_uses (fun _ _ => anytime_page rfl) _ _)
      | true =>
          refine ⟨.inl ⟨force, rfl⟩, fun _ s₂ hs₂ => ⟨fun _ => hs₂.mpr fun _ _ => rfl, fun _ s₃ _ => ?_⟩⟩
          exact anytime_wp (json_ok_uses fun _ _ => anytime_page rfl)
    · exact anytime_wp (json_err_uses (fun _ _ => anytime_page rfl) _ _)

theorem handle_wp (req : HttpRequest) : (handle ext req).wp viewing (fun _ _ => True) renewing := by
  have hanswer : ∀ a, (give_answer a).Uses Anytime :=
    give_answer_uses (fun _ => trivial) (fun _ _ _ => trivial) fun _ _ _ => trivial
  have hstart : start_checking.Uses Anytime := ⟨anytime_write fun _ => rfl, fun _ => trivial⟩
  have hspawn : Anytime (.spawn .check) := fun _ h => nomatch h
  cases req with
  | state => exact anytime_wp (state_uses (fun c => anytime_page) hstart hspawn)
  | check => exact anytime_wp (check_uses (fun c => anytime_page) hstart hspawn)
  | renew mode => exact renew_wp mode
  | login apple_id password save =>
      exact anytime_wp (login_uses (fun c => anytime_page) apple_id password save
        (fun f => anytime_write) fun _ _ h => nomatch h)
  | login_code code =>
      apply anytime_wp
      unfold handle login_code
      dsimp only
      split
      · exact json_err_uses (fun _ _ => anytime_page rfl) _ _
      · exact hanswer _
  | login_resend => exact anytime_wp (hanswer .resend)

end Web

theorem connection_thread_wp (ctx : AltServer.Ctx) (fuel : Nat) :
    (connection_thread ext ctx fuel).wp viewing (fun _ _ => True) renewing := by
  have hbody : (AltServer.handle_connection ext ctx fuel).Uses Anytime :=
    AltServer.handle_connection_uses (fun c => anytime_serves) (fun _ _ => trivial) fuel
  have hpanicked : Anytime .panicked := fun _ => trivial
  apply anytime_wp
  apply Prog.Uses.bind (hbody.interruptible hpanicked)
  exact fun _ => ⟨fun _ => trivial, fun _ => trivial⟩

-- What a thread of the other two kinds starts on.
theorem launched_wp {addr : Option SocketAddr} {i : Tid} {w w' : World} {prog : Act Unit}
    (hi : ∀ n, i ≠ .job n) (h : launched ext addr i w prog w') :
    prog.wp viewing (fun _ _ => True) renewing := by
  cases i with
  | conn n =>
      obtain ⟨fuel, rfl, -⟩ := h
      exact connection_thread_wp ⟨addr⟩ fuel
  | http n =>
      obtain ⟨req, rfl, -⟩ := h
      exact Web.handle_wp req
  | job n => exact absurd rfl (hi n)

end Threads

section Steps

variable {ext : Ext} {uuid : Octets → Str} {addr : Option SocketAddr} {w w' : World}
  {p : Tid → Local} {v : Tid → Bool} {i : Tid} {c : Cmd} {r : Resp c}

-- A renewal at work has the guard, or waits with it, and the page shows that it runs.
structure Viewed (w : World) (p : Tid → Local) (v : Tid → Bool) : Prop where
  held : ∀ i, v i = true → (p i).guard.isSome = true
  running : ∀ i, v i = true → w.inner.job.running = true
  waiting : ∀ n job, (n, job) ∈ w.res.pending → job.is_renewal = true → w.inner.job.running = true
  bound : w.inner.job.lines.length ≤ Web.MAX_JOB_LINES

-- A panic is reported while there is room for its line, and on no finished renewal.
def PanicFits (w : World) : Cmd → Prop
  | .write_inner f => f = Web.after_panic →
      w.inner.job.lines.length < Web.MAX_JOB_LINES ∧ ¬ Finished w.inner
  | _ => True

namespace Viewed

-- A step that leaves the page alone, and makes nobody a renewal at work.
theorem keep {l : Local} {renewing : Bool} (h : Viewed w p v) (hinner : w'.inner = w.inner)
    (hpending : ∀ e ∈ w'.res.pending, e ∈ w.res.pending)
    (hi : renewing = true → v i = true ∧ l.guard.isSome = true) :
    Viewed w' (Function.update p i l) (Function.update v i renewing) := by
  constructor
  · intro j hj
    by_cases hji : j = i
    · subst hji
      rw [Function.update_self] at hj ⊢
      exact (hi hj).2
    · rw [Function.update_of_ne hji] at hj ⊢
      exact h.held j hj
  · intro j hj
    rw [hinner]
    by_cases hji : j = i
    · subst hji
      rw [Function.update_self] at hj
      exact h.running j (hi hj).1
    · rw [Function.update_of_ne hji] at hj
      exact h.running j hj
  · intro n job hmem
    rw [hinner]
    exact h.waiting n job (hpending _ hmem)
  · rw [hinner]
    exact h.bound

-- While thread `i` has the guard nobody else is a renewal at work.
theorem of_single {l : Local} {renewing : Bool} (h : Viewed w p v)
    (hothers : ∀ j, j ≠ i → (p j).guard.isSome = false)
    (hi : renewing = true → l.guard.isSome = true ∧ w'.inner.job.running = true)
    (hpending : ∀ n job, (n, job) ∈ w'.res.pending → job.is_renewal = true →
      w'.inner.job.running = true)
    (hbound : w'.inner.job.lines.length ≤ Web.MAX_JOB_LINES) :
    Viewed w' (Function.update p i l) (Function.update v i renewing) := by
  have hnone : ∀ j, j ≠ i → v j = false := by
    intro j hj
    by_contra hother
    have hguard := h.held j (eq_true_of_ne_false hother)
    rw [hothers j hj] at hguard
    cases hguard
  refine ⟨fun j hj => ?_, fun j hj => ?_, hpending, hbound⟩
  · by_cases hji : j = i
    · subst hji
      rw [Function.update_self] at hj ⊢
      exact (hi hj).1
    · rw [Function.update_of_ne hji, hnone j hji] at hj
      cases hj
  · by_cases hji : j = i
    · subst hji
      rw [Function.update_self] at hj
      exact (hi hj).2
    · rw [Function.update_of_ne hji, hnone j hji] at hj
      cases hj

-- What a write leaves of the bound.
theorem write_bound {f : Inner → Inner} (h : Viewed w p v) (hc : Renewing.Allows (v i) (.write_inner f))
    (hok : PanicFits w (.write_inner f)) : (f w.inner).job.lines.length ≤ Web.MAX_JOB_LINES := by
  rcases hc with ⟨force, rfl⟩ | rfl | htame
  · exact Nat.zero_le _
  · rw [Web.length_after_panic]
    exact (hok rfl).1
  · exact (htame w.inner (h.running i)).bound h.bound

theorem call (h : Viewed w p v) (ht : Tied w.res p) (hc : (p i).Allows ext c)
    (hv : Renewing.Allows (v i) c) (hok : PanicFits w c) (heffect : effect uuid i w c r w') :
    ∃ renewing, Renewing.Step (v i) c r renewing ∧
      Viewed w' (Function.update p i ((p i).advance c r)) (Function.update v i renewing) := by
  cases c with
  | write_inner f =>
      obtain rfl := heffect
      have hi : (p i).guard.isSome = true := hc
      classical
      refine ⟨decide (∀ g, Knows (v i) g → (f g).job.running = true), decide_eq_true_iff, ?_⟩
      refine h.of_single (fun j hj => ht.guarded.guard_of_ne hi hj) (fun hrunning => ⟨?_, ?_⟩) ?_ ?_
      · simpa [Local.advance] using hi
      · exact of_decide_eq_true hrunning w.inner (h.running i)
      · have hpending : w.res.pending = [] := ht.guarded.none_waits hi
        intro n job hmem
        rw [hpending] at hmem
        cases hmem
      · exact h.write_bound hv hok
  | try_busy =>
      obtain ⟨rfl, rfl⟩ := heffect
      refine ⟨false, rfl, h.keep ?_ ?_ (absurd · Bool.false_ne_true)⟩
      · split <;> rfl
      · split <;> exact fun e he => he
  | drop_guard =>
      obtain rfl := heffect
      exact ⟨false, rfl, h.keep rfl (fun e he => he) (absurd · Bool.false_ne_true)⟩
  | spawn job =>
      obtain ⟨-, k, hk, -⟩ := hc
      have hi : (p i).guard.isSome = true := by rw [hk]; rfl
      cases r with
      | false =>
          obtain rfl := heffect
          exact ⟨false, rfl, h.keep rfl (fun e he => he) (absurd · Bool.false_ne_true)⟩
      | true =>
          obtain rfl := heffect
          refine ⟨false, rfl, h.of_single (fun j hj => ht.guarded.guard_of_ne hi hj)
            (absurd · Bool.false_ne_true) ?_ h.bound⟩
          intro n job' hmem hrenewal
          simp only [if_true, Resources.launch, ht.guarded.none_waits hi, List.nil_append,
            List.mem_singleton, Prod.mk.injEq] at hmem
          obtain ⟨-, rfl⟩ := hmem
          exact h.running i (hv hrenewal)
  | _ =>
      obtain ⟨hinner, -, hpending⟩ := effect_page rfl heffect
      refine ⟨v i, rfl, h.keep hinner (fun e he => hpending ▸ he) fun hi => ⟨hi, ?_⟩⟩
      rw [advance_guard rfl]
      exact h.held i hi

theorem start {prog : Act Unit} (h : Viewed w p v) (ht : Tied w.res p) (hidle : (p i).Idle)
    (hp : launched ext addr i w prog w') :
    ∃ l renewing, prog.wp (conduct ext) (fun _ l => l.Idle) l ∧
      prog.wp viewing (fun _ _ => True) renewing ∧ Tied w'.res (Function.update p i l) ∧
      Viewed w' (Function.update p i l) (Function.update v i renewing) := by
  rcases launched_conducts (ht.is_conn i) hidle hp with
    ⟨hi, rfl, hwp⟩ | ⟨n, job, rfl, hjob, rfl, rfl, hwp⟩
  · refine ⟨p i, v i, hwp, launched_wp hi hp, ?_⟩
    rw [Function.update_eq_self, Function.update_eq_self]
    exact ⟨ht, h⟩
  · have htied := ht.begin hidle hjob
    refine ⟨_, job.is_renewal, hwp, Web.job_thread_wp ⟨addr⟩ job, htied, ?_⟩
    have hguard : (Function.update p (.job n) { p (.job n) with guard := some job.marks.Bounds }
        (.job n)).guard.isSome = true := by simp
    refine h.of_single (fun j hj => ?_) (fun hrenewal => ⟨rfl, ?_⟩) ?_ h.bound
    · have hnone := htied.guarded.guard_of_ne hguard hj
      rwa [Function.update_of_ne hj] at hnone
    · exact h.waiting n job hjob hrenewal
    · have hpending : w.res.pending.filter (·.1 ≠ n) = [] := htied.guarded.none_waits hguard
      intro m job' hmem
      rw [hpending] at hmem
      cases hmem

end Viewed

-- Every step in which a panic fits keeps the page and the threads in agreement.
theorem viewed_modular : Threads.Modular (process ext uuid addr) ((conduct ext).prod viewing)
    (fun _ w c _ => PanicFits w c)
    (fun w q => Tied w.res (Prod.fst ∘ q) ∧ Viewed w (Prod.fst ∘ q) (Prod.snd ∘ q))
    (fun s => s.1.Idle) where
  call {i w q c r w'} h hc hok heffect := by
    obtain ⟨renewing, hstep, hviewed⟩ := h.2.call h.1 hc.1 hc.2 hok heffect
    refine ⟨((q i).1.advance c r, renewing), ⟨rfl, hstep⟩, ?_⟩
    rw [Function.comp_update, Function.comp_update]
    exact ⟨h.1.call hc.1 heffect, hviewed⟩
  start {i w q prog w'} h hidle hp := by
    obtain ⟨l, renewing, hwp, hview, htied, hviewed⟩ := h.2.start h.1 hidle hp
    refine ⟨(l, renewing), ?_, ?_⟩
    · exact Prog.wp_mono (Prog.wp_prod hwp hview) fun _ _ hpost => hpost.1
    · rw [Function.comp_update, Function.comp_update]
      exact ⟨htied, hviewed⟩

end Steps

section Runs

variable {ext : Ext} {uuid : Octets → Str} {addr : Option SocketAddr} {phone : List Octets}

abbrev Viewing (ext : Ext) : Threads.Config Tid World Resp → Prop :=
  Threads.Conforms ((conduct ext).prod viewing)
    (fun w q => Tied w.res (Prod.fst ∘ q) ∧ Viewed w (Prod.fst ∘ q) (Prod.snd ∘ q))
    (fun s => s.1.Idle)

theorem initial_viewing (phone : List Octets) : Viewing ext (initial phone) := by
  refine ⟨fun i => (fresh i, false), ⟨fresh_tied, ?_⟩, fun _ => ⟨rfl, rfl, rfl⟩⟩
  constructor
  · exact fun _ h => nomatch h
  · exact fun _ h => nomatch h
  · exact fun _ _ hmem => nomatch hmem
  · exact Nat.zero_le _

-- A renewal starts.
def StartsRenewal : Threads.Label Tid Resp → Prop
  | .call _ ⟨.write_inner f, _⟩ => ∃ force, f = Web.renewal_started force
  | _ => False

-- Of all the steps, a write alone changes the page.
theorem effect_inner {w w' : World} {i : Tid} {c : Cmd} {r : Resp c}
    (hc : ∀ f, c ≠ .write_inner f) (h : effect uuid i w c r w') : w'.inner = w.inner := by
  cases c with
  | write_inner f => exact absurd rfl (hc f)
  | try_busy =>
      obtain ⟨-, rfl⟩ := h
      split <;> rfl
  | drop_guard =>
      obtain rfl := h
      rfl
  | spawn job =>
      obtain rfl := h
      rfl
  | _ => exact (effect_page rfl h).1

theorem launched_inner {w w' : World} {i : Tid} {prog : Act Unit} (h : launched ext addr i w prog w') :
    w'.inner = w.inner := by
  cases i with
  | conn n =>
      obtain ⟨_, -, rfl⟩ := h
      rfl
  | http n =>
      obtain ⟨_, -, rfl⟩ := h
      rfl
  | job n =>
      obtain ⟨_, -, -, rfl⟩ := h
      rfl

-- The view of a finished renewal stays as it is until another starts.
theorem view_step {cfg cfg' : Threads.Config Tid World Resp} {label : Threads.Label Tid Resp}
    (h : Viewing ext cfg) (hstep : Threads.Step (process ext uuid addr) label cfg cfg')
    (hok : label.Meets (fun _ w c _ => PanicFits w c) cfg.world) (hstart : ¬ StartsRenewal label)
    (hfinished : Finished cfg.world.inner) : cfg'.world.inner.job = cfg.world.inner.job := by
  obtain ⟨q, ⟨-, hviewed⟩, hthreads⟩ := h
  cases hstep with
  | start is_done effect => rw [launched_inner effect]
  | @call _ i c k r w is_next heffect =>
      by_cases hwrite : ∀ f, c ≠ .write_inner f
      · rw [effect_inner hwrite heffect]
      · obtain ⟨f, rfl⟩ := not_forall_not.mp hwrite
        have hallowed := (Threads.Step.call is_next heffect).allows (hthreads i)
        obtain rfl := heffect
        rcases hallowed.2 with hstarted | rfl | htame
        · exact absurd hstarted hstart
        · exact absurd hfinished (hok rfl).2
        · exact (htame cfg.world.inner (hviewed.running i)).frozen hfinished.2

def Bounded (cfg : Threads.Config Tid World Resp) : Prop :=
  cfg.world.inner.job.lines.length ≤ Web.MAX_JOB_LINES

-- What the page shows of a finished renewal, until another starts.
def ViewKept (steps : List Step) : Prop :=
  ∀ first t during rest, steps = first ++ t :: (during ++ rest) → Finished t.after.world.inner →
    (∀ u ∈ during, ¬ StartsRenewal u.label) → ∀ u ∈ during,
      u.after.world.inner.job.ok = t.after.world.inner.job.ok ∧
        u.after.world.inner.job.lines = t.after.world.inner.job.lines

-- The view of the job keeps to its bound, and to the last renewal.
def ViewHolds (steps : List Step) (cfg : Threads.Config Tid World Resp) : Prop :=
  Bounded cfg ∧ (∀ t ∈ steps, Bounded t.before ∧ Bounded t.after) ∧ ViewKept steps

-- In this step a panic, if it is reported, fits.
def ReportFits (t : Step) : Prop := t.label.Meets (fun _ w c _ => PanicFits w c) t.before.world

theorem view_kept {steps : List Step} {cfg : Threads.Config Tid World Resp}
    (run : Run ext uuid addr phone steps cfg) (hfits : ∀ t ∈ steps, ReportFits t) : ViewKept steps := by
  rintro first t during rest rfl hfinished hstarts
  have hsteps := (viewed_modular.run (initial_viewing phone) run hfits).2
  have hkept := run.kept (fun c => c.world.inner.job = t.after.world.inner.job) (fun u hu hbefore => ?_) rfl
  · exact fun u hu => ⟨by rw [hkept u hu], by rw [hkept u hu]⟩
  · have hmem : u ∈ first ++ t :: (during ++ rest) := by simp [hu]
    have hfinished' : Finished u.before.world.inner := by
      unfold Finished
      rw [hbefore]
      exact hfinished
    rw [view_step (hsteps u hmem).1 (run.step_mem u hmem) (hfits u hmem) (hstarts u hu) hfinished']
    exact hbefore

-- A step from a finished renewal that starts no other changes neither.
theorem ViewKept.step {first rest : List Step} {t : Step} {cfg : Threads.Config Tid World Resp}
    (run : Run ext uuid addr phone (first ++ t :: rest) cfg) (hkept : ViewKept (first ++ t :: rest))
    (hfinished : Finished t.before.world.inner) (hstart : ¬ StartsRenewal t.label) :
    t.after.world.inner.job.ok = t.before.world.inner.job.ok ∧
      t.after.world.inner.job.lines = t.before.world.inner.job.lines := by
  rcases List.eq_nil_or_concat' first with rfl | ⟨first, u, rfl⟩
  · rw [Threads.Run.eq_init run.upto] at hfinished
    exact absurd rfl hfinished.1
  · have hbefore : t.before = u.after := run.upto.last.2.2
    rw [hbefore] at hfinished ⊢
    refine hkept first u [t] rest (by simp) hfinished ?_ t List.mem_cons_self
    exact fun v hv => List.mem_singleton.mp hv ▸ hstart

theorem not_holds_of_ok {steps : List Step} {t : Step} {cfg : Threads.Config Tid World Resp}
    (run : Run ext uuid addr phone (steps ++ [t]) cfg) (hfinished : Finished t.before.world.inner)
    (hstart : ¬ StartsRenewal t.label)
    (hok : t.after.world.inner.job.ok ≠ t.before.world.inner.job.ok) : ¬ ViewHolds (steps ++ [t]) cfg :=
  fun hholds => hok (hholds.2.2.step run hfinished hstart).1

theorem after_panic_not_start {i : Tid} {r : Resp (.write_inner Web.after_panic)} :
    ¬ StartsRenewal (.call i ⟨.write_inner Web.after_panic, r⟩) := by
  rintro ⟨force, h⟩
  have hlength := Web.length_after_panic {}
  rw [h] at hlength
  cases hlength

theorem started_ok {label : Threads.Label Tid Resp} {cfg cfg' : Threads.Config Tid World Resp}
    (hstep : Threads.Step (process ext uuid addr) label cfg cfg') (hstart : StartsRenewal label) :
    cfg'.world.inner.job.ok = none := by
  cases hstep with
  | start _ _ => exact hstart.elim
  | @call _ i c k r w is_next heffect =>
      cases c with
      | write_inner f =>
          obtain ⟨force, rfl⟩ := hstart
          obtain rfl := heffect
          rfl
      | _ => exact hstart.elim

theorem report_inner {i : Tid} {r : Resp (.write_inner Web.after_panic)}
    {cfg cfg' : Threads.Config Tid World Resp}
    (hstep : Threads.Step (process ext uuid addr) (.call i ⟨.write_inner Web.after_panic, r⟩) cfg cfg') :
    cfg'.world.inner = Web.after_panic cfg.world.inner := by
  cases hstep with
  | call is_next heffect =>
      obtain rfl := heffect
      rfl

-- The view holds in a run exactly when every panic in it is reported while there is room for its
-- line and no renewal is finished.
theorem view_iff {steps : List Step} {cfg : Threads.Config Tid World Resp}
    (run : Run ext uuid addr phone steps cfg) :
    ViewHolds steps cfg ↔ ∀ t ∈ steps, ReportFits t := by
  constructor
  · rintro ⟨-, hbounded, hkept⟩ ⟨before, label, after⟩ ht
    obtain ⟨first, rest, rfl⟩ := List.append_of_mem ht
    have hstep : Threads.Step (process ext uuid addr) label before after := run.step_mem _ ht
    have hafter : Bounded after := (hbounded _ ht).2
    rcases label with ⟨i, c, r⟩ | i
    · by_cases hwrite : ∀ f, c ≠ .write_inner f
      · unfold ReportFits PanicFits
        cases c <;> first | trivial | exact absurd rfl (hwrite _)
      · obtain ⟨f, rfl⟩ := not_forall_not.mp hwrite
        rintro rfl
        have hlength := Web.length_after_panic before.world.inner
        rw [← report_inner hstep] at hlength
        unfold Bounded at hafter
        show before.world.inner.job.lines.length < Web.MAX_JOB_LINES ∧ ¬ Finished before.world.inner
        refine ⟨by omega, fun hfinished => ?_⟩
        have hsame : after.world.inner.job.lines = before.world.inner.job.lines :=
          (hkept.step run hfinished after_panic_not_start).2
        rw [hsame] at hlength
        omega
    · trivial
  · intro hfits
    obtain ⟨hcfg, hsteps⟩ := viewed_modular.run (initial_viewing phone) run hfits
    have hbound : ∀ c : Threads.Config Tid World Resp, Viewing ext c → Bounded c := by
      rintro c ⟨q, ⟨-, hviewed⟩, -⟩
      exact hviewed.bound
    refine ⟨hbound cfg hcfg, fun t ht => ?_, view_kept run hfits⟩
    exact ⟨hbound _ (hsteps t ht).1, hbound _ (hsteps t ht).2⟩

-- A renewal asked from the page that finds nothing to do, and a check whose job panics.
def crashing (i : Tid) : (c : Cmd) → Resp c
  | .read_account => some account_text
  | .panicked => decide (i = .job 1)
  | c => reached [] c

def renewal_then_check : List (Tid × Option Key) :=
  starts (.http 0) (.page (.renew "now".toList)) 5 ++ starts (.job 0) .begin 62 ++
    starts (.http 1) (.page .check) 4 ++ starts (.job 1) .begin 2

-- The renewal has succeeded; then the panic of the check is reported, on its view.
theorem reported_run : ∃ steps t, Run sample (fun _ => []) none [] (steps ++ [t]) t.after ∧
    Finished t.before.world.inner ∧ t.before.world.inner.job.ok = some true ∧
    ¬ StartsRenewal t.label ∧ t.after.world.inner.job.ok = some false := by
  have hplay : ((player sample (fun _ => []) none crashing).play renewal_then_check (initial [])).any
      (fun cfg => decide (Finished cfg.world.inner ∧ cfg.world.inner.job.ok = some true) &&
        ((player sample (fun _ => []) none crashing).move cfg (.job 1) none).any
          fun cfg' => cfg'.world.inner.job.ok = some false) = true := by
    decide +kernel
  obtain ⟨steps, cfg, run, h⟩ := exists_run hplay
  rw [Bool.and_eq_true, Option.any_eq_true] at h
  obtain ⟨hbefore, cfg', hmove, hafter⟩ := h
  obtain ⟨hfinished, hok⟩ := of_decide_eq_true hbefore
  have hok' : cfg'.world.inner.job.ok = some false := of_decide_eq_true hafter
  have hstep := (player sample (fun _ => []) none crashing).label_step hmove
  refine ⟨steps, ⟨cfg, _, cfg'⟩, .snoc run hstep, hfinished, hok, fun hstart => ?_, hok'⟩
  rw [started_ok hstep hstart] at hok'
  cases hok'

theorem view_overwritten : ∃ steps cfg, Run sample (fun _ => []) none [] steps cfg ∧
    ¬ ViewHolds steps cfg := by
  obtain ⟨steps, t, run, hfinished, hok, hstart, hok'⟩ := reported_run
  refine ⟨_, _, run, not_holds_of_ok run hfinished hstart ?_⟩
  rw [hok, hok']
  decide

theorem view_iff_reported : ∃ steps cfg, Run sample (fun _ => []) none [] steps cfg ∧
    ¬ ∀ t ∈ steps, ReportFits t := by
  obtain ⟨steps, t, run, hfinished, hok, hstart, hok'⟩ := reported_run
  refine ⟨_, _, run, fun hfits => not_holds_of_ok run hfinished hstart ?_ ((view_iff run).mpr hfits)⟩
  rw [hok, hok']
  decide

end Runs

end AltKeeper
