import AltKeeper.GrandSlam.Calls
import AltKeeper.GrandSlam.Session

-- A sign-in that waits for a code and gets none is over: nothing more goes to Apple.
namespace AltKeeper.GrandSlam

open Prog (Both inner OnOk uses_try uses_lift_bind uses_adapt wp_try wp_adapt wp_lift_bind wp_pure_ok
  wp_throw)

section Sample

-- Nobody answers on the page.
def sample_unanswering (_ : Unit) (c : Call ⊕ Cmd) : Both Answer Resp c × Unit :=
  match c with
  | .inr (.wait_answer _) => (none, ())
  | c => ((sample_outside false c).1, ())

def sample_unanswered : Prog.Trace (Both Answer Resp) × Except Str Developer.DeveloperSession :=
  (open_session Developer.sample_libs page_code "a@b.c".toList "p".toList).exec sample_unanswering ()

theorem sample_unanswered_runs :
    (open_session Developer.sample_libs page_code "a@b.c".toList "p".toList).Runs sample_unanswered.1
      sample_unanswered.2 :=
  Prog.runs_exec _ _ _

end Sample

section Ending

-- Whether an answer of the user gives the sign-in up.
def gives_up : (c : Call) → Answer c → Bool
  | .two_factor_callback _, .ok .abort => true
  | .two_factor_callback _, .error _ => true
  | _, _ => false

def given_up (ended : Bool) (e : Prog.Event Answer) : Bool := ended || gives_up e.1 e.2

-- Nothing is called after the user has given up.
def ending : Prog.Protocol Answer Bool where
  allows ended _ := ended = false
  step ended c r ended' := ended' = given_up ended ⟨c, r⟩

theorem ending_step (ended : Bool) (e : Prog.Event Answer) :
    ending.step ended e.1 e.2 (given_up ended e) := rfl

variable {lib : Libs} {α : Type}

-- What is called while the user is not asked gives nothing up.
theorem unasked_wp {x : SignIn α} (h : x.run.Uses (·.asks = false)) :
    x.run.wp ending (OnOk fun _ ended => ended = false) false := by
  refine Prog.wp_mono (Prog.wp_of_uses (s := false) h fun c hc => ⟨rfl, ?_⟩) ?_
  · rintro r ended rfl
    cases c <;> first | rfl | cases hc
  · rintro (e | a) ended rfl
    · trivial
    · rfl

theorem unasked_of_sign_in (c : Call) (h : c.of_sign_in = true) : c.asks = false := by
  cases c <;> first | rfl | cases h

theorem ask_user_ends (acct : AppleAccount) (unknown : Bool) (selected : Option UInt32) :
    (ask_user acct unknown selected).run.wp ending
      (OnOk fun asked ended => asked.2 ≠ .abort → ended = false) false := by
  refine ⟨rfl, ?_⟩
  rintro (e | response) ended rfl
  · trivial
  · rintro hresponse
    cases response <;> first | rfl | exact absurd rfl hresponse

theorem choose_number_ends (acct : AppleAccount) (id : UInt32) :
    (choose_number acct id).run.wp ending (OnOk fun _ ended => ended = false) false :=
  wp_lift_bind fun _ _ => wp_pure_ok rfl

theorem turn_ends (acct : AppleAccount) (password : Str) :
    (turn lib password acct).run.wp ending (OnOk fun _ ended => ended = false) false := by
  unfold turn
  split
  case h_1 => exact wp_pure_ok rfl
  case h_2 =>
    refine wp_try (unasked_wp (get_trusted_numbers_uses unasked_of_sign_in acct)) ?_
    rintro acct _ rfl
    refine wp_try (wp_adapt (unasked_wp (send_trusted_device_2fa_uses unasked_of_sign_in acct))) ?_
    rintro - _ rfl
    exact wp_pure_ok rfl
  case h_3 =>
    refine wp_try (ask_user_ends acct false none) ?_
    rintro ⟨acct, response⟩ ended hended
    cases response with
    | abort => exact wp_throw
    | submit_code code =>
        obtain rfl := hended (by simp)
        exact wp_adapt (unasked_wp (verify_trusted_device_2fa_uses unasked_of_sign_in acct code))
    | send_sms id =>
        obtain rfl := hended (by simp)
        exact choose_number_ends acct id
    | send_to_devices => exact wp_pure_ok (hended (by simp))
    | resend_code => exact wp_pure_ok (hended (by simp))
  case h_4 id _ =>
    refine wp_try (unasked_wp (get_trusted_numbers_uses unasked_of_sign_in acct)) ?_
    rintro acct _ rfl
    exact wp_adapt (unasked_wp (send_sms_2fa_uses unasked_of_sign_in acct id))
  case h_5 id _ =>
    refine wp_try (ask_user_ends acct false (some id)) ?_
    rintro ⟨acct, response⟩ ended hended
    cases response with
    | abort => exact wp_throw
    | submit_code code =>
        obtain rfl := hended (by simp)
        exact wp_adapt (unasked_wp (verify_sms_2fa_uses unasked_of_sign_in acct code id))
    | send_sms id =>
        obtain rfl := hended (by simp)
        exact choose_number_ends acct id
    | send_to_devices => exact wp_pure_ok (hended (by simp))
    | resend_code => exact wp_pure_ok (hended (by simp))
  case h_6 =>
    split
    · exact wp_throw
    · exact wp_pure_ok rfl
  case h_7 => exact wp_adapt (unasked_wp (login_inner_uses unasked_of_sign_in acct password))
  case h_8 =>
    refine wp_try (ask_user_ends acct true none) ?_
    rintro ⟨acct, response⟩ ended hended
    cases response with
    | abort => exact wp_throw
    | submit_code code => exact wp_throw
    | send_sms id =>
        obtain rfl := hended (by simp)
        exact choose_number_ends acct id
    | send_to_devices => exact wp_pure_ok (hended (by simp))
    | resend_code => exact wp_throw

theorem login_loop_ends (password : Str) (left : Nat) (acct : AppleAccount) :
    (login_loop lib password left acct).run.wp ending (OnOk fun _ ended => ended = false) false := by
  induction left generalizing acct with
  | zero => exact wp_throw
  | succ left ih =>
      unfold login_loop
      split
      · exact wp_pure_ok rfl
      · refine wp_try (turn_ends acct password) ?_
        rintro acct _ rfl
        exact ih acct

theorem login_ends (email password : Str) :
    (login lib email password).run.wp ending (OnOk fun _ ended => ended = false) false := by
  refine wp_try (unasked_wp (url_bag_uses rfl)) ?_
  rintro url_bag _ rfl
  refine wp_try (wp_adapt (unasked_wp (login_inner_uses unasked_of_sign_in _ password))) ?_
  rintro acct _ rfl
  exact login_loop_ends password MAX_ATTEMPTS acct

theorem over_stays (trace : Prog.Trace Answer) : trace.foldl given_up true = true := by
  induction trace with
  | nil => rfl
  | cons e trace ih => exact ih

-- A sign-in that was given up makes no more calls and fails.
theorem login_given_up {email password : Str} {before after : Prog.Trace Answer}
    {e : Prog.Event Answer} {result : Except Report AppleAccount}
    (h : (login lib email password).run.Runs (before ++ e :: after) result)
    (hgives : gives_up e.1 e.2 = true) : after = [] ∧ ∃ err, result = .error err := by
  have hended : (before ++ [e]).foldl given_up false = true := by
    rw [List.foldl_append]
    exact (congrArg (_ || ·) hgives).trans (Bool.or_true _)
  constructor
  · cases after with
    | nil => rfl
    | cons e' after =>
        rw [List.append_cons] at h
        have hallowed := Prog.wp_allows ending_step (login_ends email password) h
        rw [hended] at hallowed
        cases hallowed
  · have hend := Prog.wp_runs ending_step (login_ends email password) h
    rw [List.append_cons, List.foldl_append, hended, over_stays] at hend
    cases result with
    | error err => exact ⟨err, rfl⟩
    | ok acct => cases hend

-- What is left of a request for a code whose time has run out.
theorem page_code_expired {params : TwoFactorCallbackParams}
    {before after : Prog.Trace (Both Answer Resp)} {rx : Nat}
    {r : Except Report TwoFactorCallbackResponse}
    (h : (carry page_code (.two_factor_callback params)).Runs
      (before ++ ⟨.inr (.wait_answer rx), none⟩ :: after) r) :
    r = .ok .abort ∧ ∃ tx, after = [⟨.inr (.store_asking false), ()⟩, ⟨.inr .take_sender, tx⟩] := by
  obtain ⟨shown, _, hsplit, rx', _, rfl, begun, _, rfl, answer, _, rfl, ended, _, rfl, tx, _, rfl, rfl,
    rfl⟩ := h
  rcases before with _ | ⟨e₀, _ | ⟨e₁, _ | ⟨e₂, _ | ⟨e₃, before⟩⟩⟩⟩
  · cases hsplit
  · cases hsplit
  · cases hsplit
  · cases hsplit
    exact ⟨rfl, tx, rfl⟩
  · have hlater := (List.cons.inj (List.cons.inj (List.cons.inj (List.cons.inj hsplit).2).2).2).2
    rcases before with _ | ⟨e₄, _ | ⟨e₅, _ | ⟨e₆, before⟩⟩⟩ <;> cases hlater

-- A sign-in from the page whose request for a code is not answered in time is over: the request is
-- taken back, and nothing more is done.
theorem unanswered_over {lib : Developer.Libs} {apple_id password : Str} {before after : Prog.Trace (Both Answer Resp)}
    {rx : Nat} {result : Except Str Developer.DeveloperSession}
    (h : (open_session lib page_code apple_id password).Runs
      (before ++ ⟨.inr (.wait_answer rx), none⟩ :: after) result) :
    (∃ tx, after = [⟨.inr (.store_asking false), ()⟩, ⟨.inr .take_sender, tx⟩]) ∧
      ∃ e, result = .error (Apple.login_failed e) := by
  obtain ⟨prepared, rest, hsplit, h⟩ := h
  cases before with
  | nil => cases (List.cons.inj hsplit).1
  | cons e before =>
      obtain ⟨rfl, rfl⟩ := List.cons.inj hsplit
      cases prepared with
      | error e => exact absurd h.1 (by simp)
      | ok _ =>
          change (signed_in lib page_code apple_id password >>= finish lib).Runs _ result at h
          obtain ⟨signed, mid, finishing, rfl, hsigned, hfinish⟩ := Prog.runs_bind_within h
            fun signed rest hrest he => nomatch (finish_quiet hrest _ he).1
          obtain ⟨calls, hcalls, hcarried⟩ := (Prog.runs_expand _ _ _).mp hsigned
          obtain ⟨earlier, c, r, later, first, mid, mid', rest, rfl, rfl, rfl, -, hmid, hlater⟩ :=
            hcarried.find
          cases hasks : c.asks with
          | false =>
              have hone := runs_carry hasks hmid
              cases mid with
              | nil => cases hone
              | cons e mid => simp at hone
          | true =>
              cases c with
              | two_factor_callback params =>
                  obtain ⟨rfl, tx, rfl⟩ := page_code_expired hmid
                  obtain ⟨rfl, e, rfl⟩ := login_given_up hcalls rfl
                  obtain rfl := hlater
                  obtain ⟨rfl, rfl⟩ := hfinish
                  exact ⟨⟨tx, rfl⟩, lib.grandslam.display e, rfl⟩
              | _ => cases hasks

theorem unanswered_over_once : ∃ before rx after result,
    (open_session Developer.sample_libs page_code "a@b.c".toList "p".toList).Runs
      (before ++ ⟨.inr (.wait_answer rx), none⟩ :: after) result ∧
    (∃ tx, after = [⟨.inr (.store_asking false), ()⟩, ⟨.inr .take_sender, tx⟩]) ∧
      ∃ e, result = .error (Apple.login_failed e) := by
  have hwaits : ∃ e ∈ sample_unanswered.1, waits e.1 = true := by decide +kernel
  obtain ⟨⟨c, r⟩, he, hwait⟩ := hwaits
  have hnone : r = (sample_unanswering () c).1 :=
    (Prog.exec_mem sample_unanswering _ () _ he).elim fun _ h => h
  obtain ⟨before, after, hsplit⟩ := List.append_of_mem he
  have hruns := sample_unanswered_runs
  rw [hsplit] at hruns
  cases c with
  | inl c => cases hwait
  | inr c =>
      cases c with
      | wait_answer rx =>
          subst hnone
          exact ⟨before, rx, after, _, hruns, unanswered_over hruns⟩
      | _ => cases hwait

end Ending

end AltKeeper.GrandSlam
