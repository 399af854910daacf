import AltKeeper.Process.Conduct
import AltKeeper.Web.Calls

-- A job and a request to the page keep to what their threads may do.
namespace AltKeeper

-- A thread with the guard, and what it knows of the marks on the page.
structure Local.Owns (m : Marks) (s : Local) : Prop where
  is_conn : s.is_conn = false
  work : s.work = false
  knows : ∃ k, s.guard = some k ∧ ∀ g, k g → m.Bounds g

-- The thread of a request between two calls that need the guard.
structure Local.Visits (s : Local) : Prop where
  is_conn : s.is_conn = false
  idle : s.Idle

section Marks

variable {s : Local} {m : Marks}

theorem Local.Owns.guard_isSome (h : s.Owns m) : s.guard.isSome = true := by
  obtain ⟨k, hk, -⟩ := h.knows
  rw [hk]
  rfl

theorem Local.Owns.link (b : Bool) (h : s.Owns m) : Local.Owns m { s with link := b } :=
  ⟨h.is_conn, h.work, h.knows⟩

-- A change to the page, by what it does to the marks.
theorem Local.Owns.write (h : s.Owns m) (m' : Marks) {f : Inner → Inner}
    (hf : ∀ g, m.Bounds g → m'.Bounds (f g)) :
    (s.advance (.write_inner f) ()).Owns m' := by
  obtain ⟨k, hk, hb⟩ := h.knows
  refine ⟨h.is_conn, h.work, fun g => ∃ before, k before ∧ f before = g, ?_, ?_⟩
  · simp [Local.advance, hk]
  · rintro _ ⟨before, hbefore, rfl⟩
    exact hf before (hb before hbefore)

end Marks

theorem Cmd.plain_of_logs_in (c : Cmd) (h : c.logs_in = true) : c.plain = true := by
  cases c <;> first | rfl | exact h

theorem Cmd.plain_of_asks_code (c : Cmd) (h : c.asks_code = true) : c.plain = true := by
  cases c <;> first | rfl | exact h

section Renew

variable {Q : Set Cmd} {ext : Ext} (hQ : ∀ {c}, c ∈ Quiet → c ∈ Q) {I : Local → Prop}
  {say : Str → Act Unit} (hI : Talks ext Q I say)

include hQ hI

theorem due_loop_talks (force : Bool) (min_days : Int) (latest : List Profile.PhoneProfile)
    {s : Local} (hs : I s) :
    (due_loop say force min_days latest).wp ((conduct ext).restrict Q)
      (fun _ s' => I s' ∧ s'.link = s.link) s := by
  induction latest generalizing s with
  | nil => exact ⟨hs, rfl⟩
  | cons p latest ih =>
      have hnext : ∀ s', I s' ∧ s'.link = s.link →
          (due_loop say force min_days latest).wp ((conduct ext).restrict Q)
            (fun _ s'' => I s'' ∧ s''.link = s.link) s' := by
        rintro s' ⟨hs', hlink'⟩
        rw [← hlink']
        exact ih hs'
      unfold due_loop
      split
      · apply Prog.wp_seq (hI.say _ hs)
        rintro - s' hs'
        exact hnext s' hs'
      · apply Prog.wp_seq (plain_conducts hQ (days_left_uses (P := Plain) rfl p))
        rintro days s rfl
        dsimp only
        split
        · apply Prog.wp_seq (hI.say _ hs)
          rintro - s' hs'
          exact hnext s' hs'
        · apply Prog.wp_seq (hnext s ⟨hs, rfl⟩)
          rintro due s' hs'
          exact hs'

theorem renew_loop_talks (dry_run : Bool) (team : DeveloperTeam) (ids : List AppId)
    (due : List (Str × Int)) (done : Nat) {s : Local} (hs : I s) :
    (renew_loop ext say dry_run team ids due done).wp ((conduct ext).restrict Q)
      (fun _ s' => I s' ∧ s'.link = s.link) s := by
  induction due generalizing done s with
  | nil => exact ⟨hs, rfl⟩
  | cons d due ih =>
      obtain ⟨bundle, days⟩ := d
      have hnext : ∀ done s', I s' ∧ s'.link = s.link →
          (renew_loop ext say dry_run team ids due done).wp ((conduct ext).restrict Q)
            (fun _ s'' => I s'' ∧ s''.link = s.link) s' := by
        rintro done s' ⟨hs', hlink'⟩
        rw [← hlink']
        exact ih done hs'
      unfold renew_loop
      split
      · apply Prog.wp_seq (hI.say _ hs)
        rintro - s' hs'
        exact hnext done s' hs'
      · split
        · apply Prog.wp_seq (hI.say _ hs)
          rintro - s' hs'
          exact hnext done s' hs'
        · apply Prog.wp_seq (hI.say _ hs)
          rintro - s₁ ⟨hs₁, hlink₁⟩
          refine conducts_ask trivial (hQ rfl) fun r => ?_
          cases r with
          | error e => exact ⟨hs₁, hlink₁⟩
          | ok new =>
              apply Prog.wp_seq (hI.say _ hs₁)
              rintro - s₂ ⟨hs₂, hlink₂⟩
              refine conducts_ask trivial (hQ rfl) fun r => ?_
              cases r with
              | error e => exact ⟨hs₂, hlink₂.trans hlink₁⟩
              | ok _ =>
                  apply Prog.wp_seq (hI.say _ hs₂)
                  rintro - s₃ ⟨hs₃, hlink₃⟩
                  exact hnext (done + 1) s₃ ⟨hs₃, hlink₃.trans (hlink₂.trans hlink₁)⟩

theorem say_profiles_talks (profiles : List Profile.PhoneProfile) {s : Local} (hs : I s) :
    (say_profiles ext say profiles).wp ((conduct ext).restrict Q)
      (fun _ s' => I s' ∧ s'.link = s.link) s := by
  induction profiles generalizing s with
  | nil => exact ⟨hs, rfl⟩
  | cons p profiles ih =>
      apply Prog.wp_seq (plain_conducts hQ (profile_line_uses (P := Plain) rfl p))
      rintro line s rfl
      apply Prog.wp_seq (hI.say line hs)
      rintro - s₁ ⟨hs₁, hlink₁⟩
      apply Prog.wp_mono (ih hs₁)
      rintro - s₂ ⟨hs₂, hlink₂⟩
      exact ⟨hs₂, hlink₂.trans hlink₁⟩

variable (hseen : ∀ {s : Local} raw, I s → I { s with seen := raw })

include hseen

theorem final_check_talks (team_id : Str) {s : Local} (hs : I s) :
    (final_check ext say team_id).wp ((conduct ext).restrict Q)
      (fun _ s' => I s' ∧ s'.link = s.link) s := by
  apply Prog.wp_seq (hI.say _ hs)
  rintro - s₁ ⟨hs₁, hlink₁⟩
  apply Prog.wp_seq (phone_profiles_conducts hQ hseen hs₁)
  rintro r s₂ ⟨hs₂, hlink₂⟩
  cases r with
  | error e => exact ⟨hs₂, hlink₂.trans hlink₁⟩
  | ok after =>
      apply Prog.wp_seq (say_profiles_talks hQ hI _ hs₂)
      rintro - s₃ ⟨hs₃, hlink₃⟩
      exact ⟨hs₃, hlink₃.trans (hlink₂.trans hlink₁)⟩

theorem renew_due_talks (acc : Account) (team_id : Str) (dry_run : Bool) (due : List (Str × Int))
    {s : Local} (hs : I s) :
    (renew_due ext say acc team_id dry_run due).wp ((conduct ext).restrict Q)
      (fun _ s' => I s' ∧ s'.link = s.link) s := by
  apply Prog.wp_seq (hI.say _ hs)
  rintro - s₁ hs₁
  apply Prog.wp_seq (plain_conducts hQ (Apple.open_session_uses Cmd.plain_of_logs_in _ _))
  rintro r s₁ rfl
  cases r with
  | error e => exact hs₁
  | ok _ =>
      apply Prog.wp_seq (plain_conducts hQ (Apple.pick_team_uses (P := Plain) rfl _))
      rintro r s₁ rfl
      cases r with
      | error e => exact hs₁
      | ok team =>
          refine conducts_ask trivial (hQ rfl) fun r => ?_
          cases r with
          | error e => exact hs₁
          | ok ids =>
              apply Prog.wp_seq (renew_loop_talks hQ hI dry_run team ids due 0 hs₁.1)
              rintro r s₂ ⟨hs₂, hlink₂⟩
              cases r with
              | error e => exact ⟨hs₂, hlink₂.trans hs₁.2⟩
              | ok done =>
                  dsimp only
                  split
                  · apply Prog.wp_mono (final_check_talks hQ hI hseen team_id hs₂)
                    rintro - s₃ ⟨hs₃, hlink₃⟩
                    exact ⟨hs₃, hlink₃.trans (hlink₂.trans hs₁.2)⟩
                  · exact ⟨hs₂, hlink₂.trans hs₁.2⟩

theorem renew_on_phone_talks (acc : Account) (team_id : Str) (dry_run force : Bool) (min_days : Int)
    {s : Local} (hs : I s) :
    (renew_on_phone ext say acc team_id dry_run force min_days).wp ((conduct ext).restrict Q)
      (fun _ s' => I s') s := by
  apply Prog.wp_seq (phone_profiles_conducts hQ hseen hs)
  rintro r s₁ ⟨hs₁, -⟩
  cases r with
  | error e => exact hs₁
  | ok profiles =>
      apply Prog.wp_seq (hI.say _ hs₁)
      rintro - s₂ ⟨hs₂, -⟩
      split
      · exact hs₂
      · apply Prog.wp_seq (due_loop_talks hQ hI force min_days _ hs₂)
        rintro due s₃ ⟨hs₃, -⟩
        split
        · apply Prog.wp_seq (hI.say _ hs₃)
          rintro - s₄ ⟨hs₄, -⟩
          exact hs₄
        · apply Prog.wp_mono (renew_due_talks hQ hI hseen acc team_id dry_run due hs₃)
          rintro - s₄ ⟨hs₄, -⟩
          exact hs₄

omit hseen in
theorem open_phone_talks (addr : Option SocketAddr) {s : Local} (hs : I s) (hlink : s.link = false) :
    (open_phone ext say addr).wp ((conduct ext).restrict Q)
      (fun r s' => I s' ∧ s'.link = succeeded r) s := by
  apply Prog.wp_seq (connect_auto_talks hQ hI addr hs hlink)
  rintro r s₁ ⟨hs₁, hlink₁⟩
  cases r with
  | error e => exact ⟨hs₁, hlink₁⟩
  | ok found =>
      have hfound : (say_found ext say addr found).wp ((conduct ext).restrict Q)
          (fun _ s' => I s' ∧ s'.link = true) s₁ := by
        unfold say_found
        split
        · apply Prog.wp_mono (hI.say _ hs₁)
          rintro - s₂ ⟨hs₂, hlink₂⟩
          exact ⟨hs₂, hlink₂.trans hlink₁⟩
        · exact ⟨hs₁, hlink₁⟩
      apply Prog.wp_seq hfound
      rintro - s₂ hs₂
      exact hs₂

-- However it ends, a renewal leaves no link behind.
theorem cmd_renew_talks (addr : Option SocketAddr) (dry_run force : Bool) (min_days : Int)
    {s : Local} (hs : I s) (hlink : s.link = false) :
    (cmd_renew ext say addr dry_run force min_days).wp ((conduct ext).restrict Q)
      (fun _ s' => I s' ∧ s'.link = false) s := by
  apply Prog.wp_seq (plain_conducts hQ (Apple.load_account_uses (P := Plain) rfl))
  rintro r s rfl
  cases r with
  | error e => exact ⟨hs, hlink⟩
  | ok acc =>
      dsimp only
      split
      · exact ⟨hs, hlink⟩
      · apply Prog.wp_seq (hI.say _ hs)
        rintro - s₁ ⟨hs₁, hlink₁⟩
        apply Prog.wp_seq (open_phone_talks hQ hI addr hs₁ (hlink₁.trans hlink))
        rintro r s₂ ⟨hs₂, hlink₂⟩
        cases r with
        | error e => exact ⟨hs₂, hlink₂⟩
        | ok _ =>
            apply Prog.wp_seq (renew_on_phone_talks hQ hI hseen acc _ dry_run force min_days hs₂)
            rintro result s₃ hs₃
            exact conducts_ask trivial (hQ rfl) fun _ => ⟨hI.link false hs₃, rfl⟩

end Renew

namespace Web

variable {ext : Ext} {s : Local}

section Check

theorem quiet_talks {m : Marks} : Talks ext Quiet (·.Owns m) quiet where
  link b h := h.link b
  may_connect h := by simp [Local.MayConnect, h.is_conn, h.guard_isSome]
  say line _ h := ⟨h, rfl⟩

theorem push_line_talks {m : Marks} : Talks ext InBody (·.Owns m) push_line where
  link b h := h.link b
  may_connect h := by simp [Local.MayConnect, h.is_conn, h.guard_isSome]
  say line s h := by
    refine ⟨⟨h.guard_isSome, rfl⟩, ?_⟩
    rintro - s' rfl
    exact ⟨h.write m fun g hg => ⟨hg.checking, hg.running, hg.working⟩, rfl⟩

theorem owns_seen {m : Marks} {s : Local} (raw : List Octets) (h : s.Owns m) :
    Local.Owns m { s with seen := raw } := ⟨h.is_conn, h.work, h.knows⟩

theorem look_at_phone_conducts (app : App) {m : Marks} (hs : s.Owns m) (hlink : s.link = false) :
    (look_at_phone ext app).wp ((conduct ext).restrict Quiet)
      (fun _ s' => s'.Owns m ∧ s'.link = false) s := by
  apply Prog.wp_seq (connect_auto_talks (fun h => h) quiet_talks app.phone hs hlink)
  rintro r s₁ ⟨hs₁, hlink₁⟩
  cases r with
  | error e => exact ⟨hs₁, hlink₁⟩
  | ok addr =>
      apply Prog.wp_seq (phone_profiles_conducts (fun h => h) owns_seen hs₁)
      rintro r s₂ ⟨hs₂, -⟩
      refine conducts_ask trivial rfl fun _ => ?_
      cases r <;> exact ⟨hs₂.link false, rfl⟩

-- Nothing is left of a check that runs out of time.
theorem look_in_time_conducts (app : App) {m : Marks} (hs : s.Owns m) (hlink : s.link = false) :
    (look_in_time ext app).wp ((conduct ext).restrict InBody)
      (fun _ s' => s'.Owns m ∧ s'.link = false) s := by
  apply Prog.wp_restrict_mono fun _ => Quiet.in_body
  have hkeep : ∀ (t : Local) (c : Cmd) (r : Resp c) (t' : Local), t.Owns m →
      ((conduct ext).restrict Quiet).allows t c → ((conduct ext).restrict Quiet).step t c r t' →
      t'.Owns m := by
    rintro t c r t' ht ⟨-, hc⟩ rfl
    obtain ⟨hguard, hwork⟩ := advance_of_quiet (s := t) (r := r) hc
    exact ⟨advance_is_conn.trans ht.is_conn, hwork.trans ht.work, hguard ▸ ht.knows⟩
  have hbody := Prog.wp_interruptible (P := (conduct ext).restrict Quiet) (c := .expired) id
    (fun t _ => ⟨⟨trivial, rfl⟩, fun r t' h => ⟨h, fun _ => trivial⟩⟩) hkeep hs
    (look_at_phone_conducts app hs hlink)
  apply Prog.wp_seq hbody
  rintro result t ⟨ht, -, hpost⟩
  cases result with
  | some result => exact hpost result rfl
  | none => exact conducts_ask trivial rfl fun _ => ⟨ht.link false, rfl⟩

theorem checked_conducts {at_time : UInt64} {found : Snapshot → Snapshot}
    (hfound : ∀ snapshot, snapshot.checking = false → (found snapshot).checking = false)
    (hs : s.Owns { checking := true }) :
    (checked at_time found).wp ((conduct ext).restrict InBody)
      (fun _ s' => s'.Owns {} ∧ s'.link = s.link) s := by
  refine ⟨⟨hs.guard_isSome, rfl⟩, ?_⟩
  rintro - s' rfl
  refine ⟨hs.write _ fun g hg => ⟨fun h => ?_, hg.running, hg.working⟩, rfl⟩
  rw [hfound _ rfl] at h
  cases h

-- A check that does not panic takes its mark away.
theorem run_check_conducts (app : App) (hs : s.Owns { checking := true }) (hlink : s.link = false) :
    (run_check ext app).wp ((conduct ext).restrict InBody)
      (fun r s' => r = some () → s'.Owns {} ∧ s'.link = false) s := by
  refine conducts_ask hs.guard_isSome rfl fun _ => ?_
  have hs₁ := hs.write { checking := true }
    (f := fun g => { g with snapshot := { g.snapshot with checking := true } })
    fun g hg => ⟨fun _ => rfl, hg.running, hg.working⟩
  apply Prog.wp_seq (plain_conducts Quiet.in_body (Apple.read_account_uses (P := Plain) rfl))
  rintro account s₁ rfl
  apply Prog.wp_seq (look_in_time_conducts app hs₁ hlink)
  rintro result s₂ ⟨hs₂, hlink₂⟩
  apply Prog.wp_seq (plain_conducts Quiet.in_body (now_uses (P := Plain) rfl))
  rintro at_time s₂ rfl
  have hdone : ∀ found : Snapshot → Snapshot,
      (∀ snapshot, snapshot.checking = false → (found snapshot).checking = false) →
      (checked at_time found >>= fun _ => pure (some ())).wp ((conduct ext).restrict InBody)
        (fun r s' => r = some () → s'.Owns {} ∧ s'.link = false) s₂ := by
    intro found hfound
    apply Prog.wp_seq (checked_conducts hfound hs₂)
    rintro - s₃ ⟨hs₃, hlink₃⟩ -
    exact ⟨hs₃, hlink₃.trans hlink₂⟩
  rcases result with _ | (e | _) | ⟨addr, profiles⟩
  · exact hdone _ fun snapshot h => h
  · exact hdone _ fun snapshot h => h
  · rintro ⟨⟩
  · apply Prog.wp_seq (plain_conducts Quiet.in_body (rows_for_uses (P := Plain) rfl _ profiles))
    rintro apps s₂ rfl
    exact hdone _ fun snapshot h => h

end Check

section Renewal

theorem renewed_conducts (app : App) (ok : Bool) (hs : s.Owns { running := true })
    (hlink : s.link = false) :
    (renewed ext app ok).wp ((conduct ext).restrict InBody)
      (fun r s' => r = some () → s'.Owns {} ∧ s'.link = false) s := by
  refine conducts_ask hs.guard_isSome rfl fun _ => conducts_ask trivial rfl fun g => ?_
  have hs₁ := hs.write { checking := true }
    (f := fun g => { g with job := { g.job with running := false, ok := some ok } })
    fun g hg => ⟨fun _ => rfl, fun h => Bool.noConfusion h, hg.working⟩
  apply Prog.wp_seq (plain_conducts Quiet.in_body
    (append_log_uses (P := Plain) rfl rfl (fun _ => rfl) g.job.lines ok))
  rintro - s₁ rfl
  exact run_check_conducts app hs₁ hlink

theorem run_renew_conducts (app : App) (force : Bool) (hs : s.Owns { running := true })
    (hlink : s.link = false) :
    (run_renew ext app force).wp ((conduct ext).restrict InBody)
      (fun r s' => r = some () → s'.Owns {} ∧ s'.link = false) s := by
  apply Prog.wp_seq (cmd_renew_talks Quiet.in_body push_line_talks owns_seen app.phone false force
    RENEW_MIN_DAYS hs hlink)
  rintro r s₁ ⟨hs₁, hlink₁⟩
  rcases r with (e | _) | _
  · apply Prog.wp_seq (push_line_talks.say _ hs₁)
    rintro - s₂ ⟨hs₂, hlink₂⟩
    exact renewed_conducts app false hs₂ (hlink₂.trans hlink₁)
  · rintro ⟨⟩
  · exact renewed_conducts app true hs₁ hlink₁

end Renewal

section Login

theorem signed_in_phase (save : Bool) (outcome : Except Str Str) :
    (signed_in ext save outcome).phase ≠ .working := by
  cases outcome with
  | ok team => exact fun h : Phase.done = .working => by cases h
  | error e => exact fun h : Phase.failed = .working => by cases h

theorem run_login_conducts (apple_id password : Str) (save : Bool)
    (hs : s.Owns { working := true }) (hlink : s.link = false) :
    (run_login ext apple_id password save).wp ((conduct ext).restrict InBody)
      (fun r s' => r = some () → s'.Owns {} ∧ s'.link = false) s := by
  apply Prog.wp_seq (plain_conducts Quiet.in_body (sign_in_uses (P := Plain) apple_id password save
    Cmd.plain_of_asks_code Cmd.plain_of_logs_in rfl fun _ => rfl))
  rintro outcome s rfl
  have hs₁ := hs.write {} (f := fun g => { g with
      login := signed_in ext save outcome
      snapshot := { g.snapshot with checked_at := none } })
    fun g hg => ⟨hg.checking, hg.running, fun h => absurd h (signed_in_phase save outcome)⟩
  exact conducts_ask hs.guard_isSome rfl fun _ _ => ⟨hs₁, hlink⟩

end Login

section Jobs

theorem run_job_conducts (app : App) (job : Job) (hs : s.Owns job.marks) (hlink : s.link = false) :
    (run_job ext app job).wp ((conduct ext).restrict InBody)
      (fun r s' => r = some () → s'.Owns {} ∧ s'.link = false) s := by
  cases job with
  | check => exact run_check_conducts app hs hlink
  | renew force => exact run_renew_conducts app force hs hlink
  | login apple_id password save => exact run_login_conducts apple_id password save hs hlink

-- The panic handler leaves no mark, whatever was set.
theorem after_panic_clean (g : Inner) : Clean (after_panic g) := by
  refine ⟨fun h => Bool.noConfusion h, fun h => Bool.noConfusion h, fun h => ?_⟩
  unfold after_panic at h
  dsimp only at h
  split at h
  · cases h
  · contradiction

-- A job gives the guard back with no mark left, wherever a panic strikes.
theorem job_thread_conducts (app : App) (job : Job) (hs : s.Owns job.marks) (hlink : s.link = false) :
    (job_thread ext app job).wp (conduct ext) (fun _ s' => s'.Idle) s := by
  have hkeep : ∀ (t : Local) (c : Cmd) (r : Resp c) (t' : Local),
      t.is_conn = false ∧ t.guard.isSome = true →
      ((conduct ext).restrict InBody).allows t c → ((conduct ext).restrict InBody).step t c r t' →
      t'.is_conn = false ∧ t'.guard.isSome = true := by
    rintro t c r t' ⟨hconn, hguard⟩ ⟨-, hc⟩ rfl
    exact ⟨advance_is_conn.trans hconn, (advance_guard_isSome hc).trans hguard⟩
  have hbody := Prog.wp_interruptible (P := (conduct ext).restrict InBody) (c := .panicked) id
    (fun t _ => ⟨⟨trivial, rfl⟩, fun r t' h => ⟨h, fun _ => trivial⟩⟩) hkeep
    ⟨hs.is_conn, hs.guard_isSome⟩ (run_job_conducts app job hs hlink)
  apply Prog.wp_seq (Prog.wp_of_restrict hbody)
  rintro result t ⟨⟨hconn, hguard⟩, -, hpost⟩
  have hpanic : (do
      ask .unwind
      ask (.write_inner after_panic)
      ask .drop_guard : Act Unit).wp (conduct ext) (fun _ s' => s'.Idle) t := by
    refine ⟨trivial, fun _ t₁ h₁ => ?_⟩
    obtain rfl := h₁
    refine ⟨hguard, fun _ t₂ h₂ => ?_⟩
    obtain rfl := h₂
    obtain ⟨k, hk⟩ := Option.isSome_iff_exists.mp hguard
    refine ⟨⟨rfl, fun g => ∃ before, k before ∧ after_panic before = g, ?_, ?_⟩, fun _ t₃ h₃ => ?_⟩
    · simp [Local.advance, hk]
    · rintro _ ⟨before, -, rfl⟩
      exact after_panic_clean before
    · obtain rfl := h₃
      exact ⟨rfl, rfl, rfl⟩
  rcases result with _ | _ | _
  · exact hpanic
  · exact hpanic
  · obtain ⟨howns, hlink'⟩ := hpost (some ()) rfl rfl
    refine ⟨⟨hlink', howns.knows⟩, fun _ t' h => ?_⟩
    obtain rfl := h
    exact ⟨rfl, howns.work, hlink'⟩

end Jobs

section Handlers

-- What is always allowed is allowed between two calls that need the guard.
theorem any_conducts {α : Type} {p : Act α} (hp : p.Uses Plain) :
    p.wp ((conduct ext).restrict Set.univ) (fun _ s' => s' = s) s :=
  plain_conducts (fun _ => trivial) hp

-- The guard goes to the job, whose mark has just been set, or is dropped.
theorem spawn_conducts (job : Job) {k : Inner → Prop} (hs : s.Visits)
    (hk : ∀ g, k g → job.marks.Bounds g ∧ job.Shows g) :
    (spawn_job job).wp ((conduct ext).restrict Set.univ) (fun _ s' => s'.Visits)
      { s with guard := some k } := by
  refine conducts_ask ⟨hs.idle.2.2, k, rfl, hk⟩ trivial fun _ => ?_
  exact ⟨hs.is_conn, rfl, hs.idle.2⟩

-- A handler sets its job's mark on a clean page and lets the job begin.
theorem start_conducts {f : Inner → Inner} {job : Job} (hs : s.Visits)
    (hf : ∀ g, Clean g → job.marks.Bounds (f g) ∧ job.Shows (f g)) :
    (ask (.write_inner f) >>= fun _ => spawn_job job).wp ((conduct ext).restrict Set.univ)
      (fun _ s' => s'.Visits) { s with guard := some Clean } := by
  refine conducts_ask rfl trivial fun _ => ?_
  apply spawn_conducts job hs
  rintro _ ⟨before, hbefore, rfl⟩
  exact hf before hbefore

theorem start_checking_conducts (hs : s.Visits) :
    (start_checking >>= fun _ => spawn_job .check).wp ((conduct ext).restrict Set.univ)
      (fun _ s' => s'.Visits) { s with guard := some Clean } :=
  start_conducts hs fun _ hg => ⟨⟨fun _ => rfl, hg.running, hg.working⟩, rfl⟩

theorem check_if_stale_conducts (pairing : Bool) (snapshot : Snapshot) (hs : s.Visits) :
    (check_if_stale pairing snapshot).wp ((conduct ext).restrict Set.univ)
      (fun _ s' => s'.Visits) s := by
  apply Prog.wp_seq (any_conducts (stale_uses (P := Plain) rfl pairing snapshot))
  rintro old s rfl
  cases old with
  | false => exact hs
  | true =>
      refine conducts_ask ⟨hs.is_conn, hs.idle.1⟩ trivial fun taken => ?_
      cases taken with
      | false => exact hs
      | true => exact start_checking_conducts hs

theorem state_conducts (hs : s.Visits) :
    (state ext).wp ((conduct ext).restrict Set.univ) (fun _ s' => s'.Visits) s := by
  apply Prog.wp_seq (any_conducts (Apple.read_account_uses (P := Plain) rfl))
  rintro account s rfl
  refine conducts_ask trivial trivial fun pairing => conducts_ask trivial trivial fun g => ?_
  apply Prog.wp_seq (check_if_stale_conducts pairing g.snapshot hs)
  rintro - s hs
  refine conducts_ask trivial trivial fun log => conducts_ask trivial trivial fun g => ?_
  refine conducts_ask trivial trivial fun asking => conducts_ask trivial trivial fun code_error => ?_
  apply Prog.wp_seq (any_conducts (now_uses (P := Plain) rfl))
  rintro time s rfl
  refine conducts_ask trivial trivial fun busy => ⟨⟨trivial, trivial⟩, fun _ s' h => ?_⟩
  obtain rfl := h
  exact hs

theorem refused_conducts (hs : s.Visits) (status : Nat) (msg : String) :
    (json_err status msg).wp ((conduct ext).restrict Set.univ) (fun _ s' => s'.Visits) s := by
  apply Prog.wp_mono (any_conducts (json_err_uses (P := Plain) (fun _ _ => rfl) status msg))
  rintro - s rfl
  exact hs

theorem accepted_conducts (hs : s.Visits) :
    json_ok.wp ((conduct ext).restrict Set.univ) (fun _ s' => s'.Visits) s := by
  apply Prog.wp_mono (any_conducts (json_ok_uses (P := Plain) fun _ _ => rfl))
  rintro - s rfl
  exact hs

theorem check_conducts (hs : s.Visits) :
    check.wp ((conduct ext).restrict Set.univ) (fun _ s' => s'.Visits) s := by
  refine conducts_ask ⟨hs.is_conn, hs.idle.1⟩ trivial fun taken => ?_
  cases taken with
  | false => exact refused_conducts hs CONFLICT BUSY_MSG
  | true =>
      apply Prog.wp_mono (p := (start_checking >>= fun _ => spawn_job .check) >>= fun _ => json_ok)
      · apply Prog.wp_seq (start_checking_conducts hs)
        exact fun _ s' hs' => accepted_conducts hs'
      · exact fun _ _ h => h

theorem renew_conducts (mode : Str) (hs : s.Visits) :
    (renew ext mode).wp ((conduct ext).restrict Set.univ) (fun _ s' => s'.Visits) s := by
  unfold renew
  split
  · exact refused_conducts hs _ _
  · rename_i force _
    apply Prog.wp_seq (any_conducts (Apple.read_account_uses (P := Plain) rfl))
    rintro account s rfl
    split
    · refine conducts_ask ⟨hs.is_conn, hs.idle.1⟩ trivial fun taken => ?_
      cases taken with
      | false => exact refused_conducts hs CONFLICT BUSY_MSG
      | true =>
          refine conducts_ask rfl trivial fun _ => ?_
          apply Prog.wp_seq (spawn_conducts (.renew force) hs ?_)
          · exact fun _ s' hs' => accepted_conducts hs'
          · rintro _ ⟨before, hbefore, rfl⟩
            exact ⟨⟨hbefore.checking, fun _ => rfl, hbefore.working⟩, rfl⟩
    · exact refused_conducts hs _ _

theorem login_conducts (apple_id password : Str) (save : Bool) (hs : s.Visits) :
    (login apple_id password save).wp ((conduct ext).restrict Set.univ)
      (fun _ s' => s'.Visits) s := by
  unfold login
  dsimp only
  split
  · exact refused_conducts hs _ _
  · refine conducts_ask ⟨hs.is_conn, hs.idle.1⟩ trivial fun taken => ?_
    cases taken with
    | false => exact refused_conducts hs CONFLICT BUSY_MSG
    | true =>
        refine conducts_ask rfl trivial fun _ => conducts_ask trivial trivial fun _ => ?_
        apply Prog.wp_seq (spawn_conducts (.login _ password save) hs ?_)
        · exact fun _ s' hs' => accepted_conducts hs'
        · rintro _ ⟨before, hbefore, rfl⟩
          exact ⟨⟨hbefore.checking, hbefore.running, fun _ => rfl⟩, rfl⟩

theorem give_answer_conducts (a : TfaAnswer) (hs : s.Visits) :
    (give_answer a).wp ((conduct ext).restrict Set.univ) (fun _ s' => s'.Visits) s := by
  apply Prog.wp_seq (any_conducts (answer_uses (P := Plain) rfl (fun _ _ => rfl) a))
  rintro delivered s rfl
  split
  · exact accepted_conducts hs
  · exact refused_conducts hs _ _

-- A request to the page ends without the guard, which it has given to a job or dropped.
theorem handle_conducts (req : HttpRequest) (hs : s.Visits) :
    (handle ext req).wp (conduct ext) (fun _ s' => s'.Idle) s := by
  have hvisits : (handle ext req).wp ((conduct ext).restrict Set.univ) (fun _ s' => s'.Visits) s := by
    cases req with
    | state => exact state_conducts hs
    | check => exact check_conducts hs
    | renew mode => exact renew_conducts mode hs
    | login apple_id password save => exact login_conducts apple_id password save hs
    | login_code code =>
        unfold handle login_code
        dsimp only
        split
        · exact refused_conducts hs _ _
        · exact give_answer_conducts _ hs
    | login_resend => exact give_answer_conducts .resend hs
  exact Prog.wp_mono (Prog.wp_of_restrict hvisits) fun _ _ h => h.idle

end Handlers

end Web

end AltKeeper
