import AltKeeper.GrandSlam.Login

-- What a sign-in may send to Apple after what the user and Apple have said.
namespace AltKeeper.GrandSlam

open Prog (OnOk wp_adapt wp_try wp_quiet wp_lift_bind wp_context_bind wp_pure_ok wp_throw)

section Exchange

-- How a code reached the user.
inductive Way where
  | devices
  | number (id : UInt32)
  deriving DecidableEq

def TwoFactorCallbackParams.way (params : TwoFactorCallbackParams) : Option Way :=
  if params.unknown then none
  else if params.sms then params.selected_number_id.map .number
  else some .devices

-- The code that a call sends to Apple.
def Call.code : Call → Option (Way × Str)
  | .send (.validate_code _ _ code) => some (.devices, code)
  | .send (.post_code _ code id) => some (.number id, code)
  | _ => none

def Call.asks : Call → Bool
  | .two_factor_callback _ => true
  | _ => false

def Call.shows_error : Call → Bool
  | .two_factor_callback params => params.last_error.isSome
  | _ => false

def Call.sends_sms : Call → Bool
  | .send (.put_phone _ _) => true
  | _ => false

-- A proof of the password is begun.
def Call.signs_in : Call → Bool
  | .send (.begin_proof _ _ _ _) => true
  | _ => false

variable (lib : Libs)

def accepts : (c : Call) → Answer c → Bool
  | .send (.validate_code _ _ _), .ok r =>
      match read_device_verdict lib r with
      | .ok .accepted => true
      | _ => false
  | .send (.post_code _ _ _), .ok r =>
      match read_sms_verdict lib r with
      | .ok .accepted => true
      | _ => false
  | _, _ => false

-- The message of an answer that refuses a code, or the sending of one.
def refusal : (c : Call) → Answer c → Option Str
  | .send (.validate_code _ _ _), .ok r =>
      match read_device_verdict lib r with
      | .ok (.refused message) => some message
      | _ => none
  | .send (.post_code _ _ _), .ok r =>
      match read_sms_verdict lib r with
      | .ok (.refused message) => some message
      | _ => none
  | .send (.put_phone _ _), .ok r =>
      match read_sms_sent lib r with
      | .ok (.refused message) => some message
      | _ => none
  | _, _ => none

-- Whether the answer to a proof asks for a code.
def proof_status (r : Reply) : Except Report Dictionary := do
  let response ← read_response lib.plist r
  let response ← check_grandslam_error response
  get_dict response "Status"

def LoginState.wants_code : LoginState → Bool
  | .needs_device_2fa => true
  | .needs_sms_2fa _ => true
  | .needs_device_2fa_verification => true
  | .needs_sms_2fa_verification _ => true
  | .needs_unknown_2fa => true
  | _ => false

def demands : (c : Call) → Answer c → Option Bool
  | .send (.complete _ _ _ _ _), .ok r =>
      match proof_status lib r with
      | .ok status => some (after_proof status).wants_code
      | .error _ => none
  | _, _ => none

def numbers_given : (c : Call) → Answer c → List UInt32
  | .send (.trusted_numbers _), .ok r => ((read_trusted_numbers lib r).toOption.getD []).map (·.id)
  | _, _ => []

-- What has been said so far: how often a code was asked for, and sign-ins begun and codes
-- accepted; whether Apple still waits for a code; the code that the user gave last and that was not
-- sent; the refusal that the user has not seen; the numbers that Apple gave.
structure Exchange where
  asked : Nat := 0
  signed_in : Nat := 0
  accepted : Nat := 0
  demanded : Bool := false
  given : Option (Way × Str) := none
  refused : Option Str := none
  numbers : List UInt32 := []

def Exchange.ask (x : Exchange) (params : TwoFactorCallbackParams) :
    Except Report TwoFactorCallbackResponse → Exchange
  | .ok (.submit_code code) =>
      { x with asked := x.asked + 1, refused := none, given := params.way.map (·, code) }
  | _ => { x with asked := x.asked + 1, refused := none, given := none }

def Exchange.advance (x : Exchange) (e : Prog.Event Answer) : Exchange :=
  match e with
  | ⟨.two_factor_callback params, response⟩ => x.ask params response
  | ⟨c, r⟩ => {
      asked := x.asked
      signed_in := if c.signs_in then x.signed_in + 1 else x.signed_in
      accepted := if accepts lib c r then x.accepted + 1 else x.accepted
      demanded := (demands lib c r).getD (x.demanded && !accepts lib c r)
      given := if c.code.isSome then none else x.given
      refused := (refusal lib c r).or x.refused
      numbers := numbers_given lib c r ++ x.numbers }

def MAX_ASKED : Nat := 14

-- A code is asked for when Apple wants one, with the refusal of the one before; a code that is
-- sent is the one given last, the way it came; a number that is sent a code is one of Apple's, or
-- the first; the password is proved again after a code was accepted.
def Exchange.Allows (x : Exchange) : Call → Prop
  | .two_factor_callback params =>
      x.demanded = true ∧ x.asked < MAX_ASKED ∧ params.last_error = x.refused
  | .send (.put_phone _ id) => x.demanded = true ∧ (id = 1 ∨ id ∈ x.numbers)
  | .send (.send_device_code _ _) => x.demanded = true
  | .send (.begin_proof _ _ _ _) => x.signed_in = x.accepted ∧ x.demanded = false
  | .send (.complete _ _ _ _ _) => x.demanded = false
  | c => c.code.isSome → c.code = x.given

def exchanging : Prog.Protocol Answer Exchange where
  allows := Exchange.Allows
  step x c r x' := x' = x.advance lib ⟨c, r⟩

end Exchange

section Standing

-- The number that a code is sent to.
def LoginState.number : LoginState → Option UInt32
  | .needs_sms_2fa id => some id
  | .needs_sms_2fa_verification id => some id
  | _ => none

-- The states whose turn asks the user.
def LoginState.asks : LoginState → Bool
  | .needs_device_2fa_verification => true
  | .needs_sms_2fa_verification _ => true
  | .needs_unknown_2fa => true
  | _ => false

-- Where the account stands while Apple wants a code and `left` more turns may follow.
structure Told (acct : AppleAccount) (left : Nat) (x : Exchange) : Prop where
  refused : x.refused = acct.last_error
  numbers : ∀ n ∈ acct.trusted_phone_numbers.getD [], n.id ∈ x.numbers
  demanded : x.demanded = true
  signed_in : x.signed_in = x.accepted + 1
  budget : x.asked + left ≤ MAX_ASKED

-- Where it stands at the head of the loop.
structure Standing (acct : AppleAccount) (left : Nat) (x : Exchange) : Prop where
  refused : x.refused = acct.last_error
  numbers : ∀ n ∈ acct.trusted_phone_numbers.getD [], n.id ∈ x.numbers
  demanded : x.demanded = acct.login_state.wants_code
  signed_in : x.signed_in = x.accepted + if acct.login_state = .needs_login then 0 else 1
  number : ∀ id, acct.login_state.number = some id → id = 1 ∨ id ∈ x.numbers
  budget : x.asked + left ≤ MAX_ASKED + if acct.login_state.asks then 0 else 1

variable {acct : AppleAccount} {left : Nat} {x : Exchange}

theorem LoginState.ne_needs_login {s : LoginState} (h : s.wants_code = true) : s ≠ .needs_login := by
  rintro rfl
  cases h

theorem Standing.told (h : Standing acct (left + 1) x) (hwants : acct.login_state.wants_code = true) :
    Told acct left x where
  refused := h.refused
  numbers := h.numbers
  demanded := h.demanded.trans hwants
  signed_in := by
    rw [h.signed_in, if_neg (LoginState.ne_needs_login hwants)]
  budget := by
    have hbudget := h.budget
    split at hbudget <;> omega

theorem Told.standing (h : Told acct left x) {s : LoginState} (hwants : s.wants_code = true)
    (hnumber : ∀ id, s.number = some id → id = 1 ∨ id ∈ x.numbers) :
    Standing { acct with login_state := s } left x where
  refused := h.refused
  numbers := h.numbers
  demanded := h.demanded.trans hwants.symm
  signed_in := by
    rw [h.signed_in, if_neg (LoginState.ne_needs_login hwants)]
  number := hnumber
  budget := Nat.le_add_right_of_le h.budget

end Standing

section Calls

variable {lib : Libs} {x : Exchange}

-- Calls that say nothing of codes.
theorem advance_quiet {c : Call} (hc : (∃ gs, c = .get_anisette_data gs) ∨ c = .random) (r : Answer c) :
    x.advance lib ⟨c, r⟩ = x := by
  obtain ⟨asked, signed_in, accepted, demanded, given, refused, numbers⟩ := x
  rcases hc with ⟨gs, rfl⟩ | rfl <;> simp [Exchange.advance, Call.signs_in, accepts, demands, Call.code,
    refusal, numbers_given]

theorem anisette_data_wp (gs : Dictionary) (why : String) :
    (anisette_data gs why).run.wp (exchanging lib) (OnOk fun _ x' => x' = x) x := by
  refine wp_adapt ⟨(nomatch ·), ?_⟩
  rintro (e | a) x' rfl
  · trivial
  · exact advance_quiet (.inl ⟨gs, rfl⟩) _

theorem random_wp : (ExceptT.lift (perform .random) : SignIn Octets).run.wp (exchanging lib)
    (OnOk fun _ x' => x' = x) x :=
  ⟨(nomatch ·), fun _ _ h => h.trans (advance_quiet (.inr rfl) _)⟩

theorem send_wp {req : Request} (h : x.Allows (.send req)) :
    (send req).run.wp (exchanging lib) (OnOk fun r x' => x' = x.advance lib ⟨.send req, .ok r⟩) x := by
  refine ⟨h, ?_⟩
  rintro (e | r) x' rfl
  · trivial
  · rfl

end Calls

section Turns

variable {lib : Libs} {acct : AppleAccount} {left : Nat} {x : Exchange}

-- A request of the second factor, which is no proof of the password.
def Request.second : Request → Bool
  | .begin_proof _ _ _ _ => false
  | .complete _ _ _ _ _ => false
  | _ => true

theorem Told.advance (h : Told acct left x) {req : Request} (hreq : req.second = true) {r : Reply}
    (haccepts : accepts lib (.send req) (.ok r) = false) {last_error : Option Str}
    (hrefusal : (refusal lib (.send req) (.ok r)).or acct.last_error = last_error) :
    Told { acct with last_error } left (x.advance lib ⟨.send req, .ok r⟩) where
  refused := by
    rw [← hrefusal, ← h.refused]
    rfl
  numbers n hn := List.mem_append_right _ (h.numbers n hn)
  demanded := by
    have hdemands : demands lib (.send req) (.ok r) = none := by
      cases req <;> first | rfl | cases hreq
    change (demands lib (.send req) (.ok r)).getD (x.demanded && !accepts lib (.send req) (.ok r)) = true
    rw [hdemands, haccepts, h.demanded]
    rfl
  signed_in := by
    have hsigns : (Call.send req).signs_in = false := by
      cases req <;> first | rfl | cases hreq
    change (if (Call.send req).signs_in then x.signed_in + 1 else x.signed_in) =
      (if accepts lib (.send req) (.ok r) then x.accepted + 1 else x.accepted) + 1
    rw [hsigns, haccepts, h.signed_in]
    rfl
  budget := h.budget

-- An accepted code leads to another proof of the password.
theorem Told.accepted (h : Told acct left x) {req : Request} (hreq : req.second = true) {r : Reply}
    (haccepts : accepts lib (.send req) (.ok r) = true)
    (hrefusal : refusal lib (.send req) (.ok r) = none) :
    Standing { acct with login_state := .needs_login } left (x.advance lib ⟨.send req, .ok r⟩) where
  refused := by
    change (refusal lib (.send req) (.ok r)).or x.refused = acct.last_error
    rw [hrefusal, h.refused]
    rfl
  numbers n hn := List.mem_append_right _ (h.numbers n hn)
  demanded := by
    have hdemands : demands lib (.send req) (.ok r) = none := by
      cases req <;> first | rfl | cases hreq
    change (demands lib (.send req) (.ok r)).getD (x.demanded && !accepts lib (.send req) (.ok r)) = false
    rw [hdemands, haccepts, h.demanded]
    rfl
  signed_in := by
    have hsigns : (Call.send req).signs_in = false := by
      cases req <;> first | rfl | cases hreq
    change (if (Call.send req).signs_in then x.signed_in + 1 else x.signed_in) =
      (if accepts lib (.send req) (.ok r) then x.accepted + 1 else x.accepted) + 0
    rw [hsigns, haccepts, h.signed_in]
    rfl
  number _ hid := by cases hid
  budget := Nat.le_add_right_of_le h.budget

theorem verify_trusted_device_2fa_wp (h : Told acct left x) {code : Str}
    (hgiven : x.given = some (.devices, code)) :
    (verify_trusted_device_2fa lib acct code).run.wp (exchanging lib)
      (OnOk fun acct' x' => Standing acct' left x') x := by
  refine wp_quiet (anisette_data_wp _ _) fun anisette => wp_lift_bind fun url _ => ?_
  refine wp_lift_bind fun headers _ => wp_try (wp_adapt (send_wp fun _ => hgiven.symm)) ?_
  rintro r _ rfl
  refine wp_lift_bind fun verdict hverdict => ?_
  cases verdict with
  | accepted =>
      refine wp_pure_ok (h.accepted rfl ?_ ?_)
      · simp only [accepts, hverdict]
      · simp only [refusal, hverdict]
  | refused message =>
      have htold : Told { acct with last_error := some message } left
          (x.advance lib ⟨.send (.validate_code url headers code), .ok r⟩) := by
        refine h.advance rfl ?_ ?_
        · simp only [accepts, hverdict]
        · simp only [refusal, hverdict, Option.some_or]
      exact wp_pure_ok (htold.standing rfl fun _ hnumber => nomatch hnumber)

theorem verify_sms_2fa_wp (h : Told acct left x) {code : Str} {id : UInt32}
    (hid : id = 1 ∨ id ∈ x.numbers) (hgiven : x.given = some (.number id, code)) :
    (verify_sms_2fa lib acct code id).run.wp (exchanging lib)
      (OnOk fun acct' x' => Standing acct' left x') x := by
  refine wp_quiet (anisette_data_wp _ _) fun anisette => ?_
  refine wp_lift_bind fun headers _ => wp_try (wp_adapt (send_wp fun _ => hgiven.symm)) ?_
  rintro r _ rfl
  refine wp_lift_bind fun verdict hverdict => ?_
  cases verdict with
  | accepted =>
      refine wp_pure_ok (h.accepted rfl ?_ ?_)
      · simp only [accepts, hverdict]
      · simp only [refusal, hverdict]
  | refused message =>
      have htold : Told { acct with last_error := some message } left
          (x.advance lib ⟨.send (.post_code headers code id), .ok r⟩) := by
        refine h.advance rfl ?_ ?_
        · simp only [accepts, hverdict]
        · simp only [refusal, hverdict, Option.some_or]
      refine wp_pure_ok (htold.standing rfl ?_)
      rintro _ ⟨⟩
      exact hid

theorem send_sms_2fa_wp (h : Told acct left x) {id : UInt32} (hid : id = 1 ∨ id ∈ x.numbers) :
    (send_sms_2fa lib acct id).run.wp (exchanging lib)
      (OnOk fun acct' x' => Standing acct' left x') x := by
  refine wp_quiet (anisette_data_wp _ _) fun anisette => ?_
  refine wp_lift_bind fun headers _ => wp_try (wp_adapt (send_wp ⟨h.demanded, hid⟩)) ?_
  rintro r _ rfl
  refine wp_lift_bind fun verdict hverdict => ?_
  cases verdict with
  | accepted =>
      have htold : Told acct left (x.advance lib ⟨.send (.put_phone headers id), .ok r⟩) := by
        refine h.advance rfl rfl ?_
        simp only [refusal, hverdict, Option.none_or]
      refine wp_pure_ok (htold.standing rfl ?_)
      rintro _ ⟨⟩
      exact hid
  | refused message =>
      have htold : Told { acct with last_error := some message } left
          (x.advance lib ⟨.send (.put_phone headers id), .ok r⟩) := by
        refine h.advance rfl rfl ?_
        simp only [refusal, hverdict, Option.some_or]
      exact wp_pure_ok (htold.standing rfl fun _ hnumber => nomatch hnumber)

theorem get_trusted_numbers_wp (h : Told acct left x) :
    (get_trusted_numbers lib acct).run.wp (exchanging lib) (OnOk fun acct' x' =>
      Told acct' left x' ∧ acct'.login_state = acct.login_state ∧ ∀ id ∈ x.numbers, id ∈ x'.numbers) x := by
  unfold get_trusted_numbers
  split
  · exact wp_pure_ok ⟨h, rfl, fun _ hid => hid⟩
  refine wp_quiet (anisette_data_wp _ _) fun anisette => ?_
  refine wp_lift_bind fun headers _ => wp_try (send_wp (nomatch ·)) ?_
  rintro r _ rfl
  refine wp_lift_bind fun numbers hnumbers => wp_pure_ok ⟨?_, rfl, fun _ => List.mem_append_right _⟩
  have htold : Told acct left (x.advance lib ⟨.send (.trusted_numbers headers), .ok r⟩) :=
    h.advance rfl rfl rfl
  refine { htold with numbers := fun n hn => List.mem_append_left _ ?_ }
  simp only [numbers_given, hnumbers]
  exact List.mem_map_of_mem hn

theorem send_trusted_device_2fa_wp (h : Told acct left x) :
    (send_trusted_device_2fa acct).run.wp (exchanging lib) (OnOk fun _ x' => Told acct left x') x := by
  refine wp_quiet (anisette_data_wp _ _) fun anisette => wp_lift_bind fun url _ => ?_
  refine wp_lift_bind fun headers _ => wp_try (wp_adapt (send_wp h.demanded)) ?_
  rintro r _ rfl
  exact wp_lift_bind fun _ _ => wp_pure_ok (h.advance rfl rfl rfl)

end Turns

section Proof

variable {lib : Libs} {acct : AppleAccount} {left : Nat} {x : Exchange}

theorem after_proof_cases (status : Dictionary) : after_proof status = .needs_device_2fa ∨
    after_proof status = .needs_sms_2fa 1 ∨ after_proof status = .logged_in ∨
    ∃ s, after_proof status = .needs_extra_step s := by
  unfold after_proof
  split
  · split_ifs
    · exact .inl rfl
    · exact .inr (.inl rfl)
    · exact .inr (.inr (.inl rfl))
    · exact .inr (.inr (.inr ⟨_, rfl⟩))
  · exact .inr (.inr (.inl rfl))

theorem open_spd_status {verifier : ClientVerifier} {response : Dictionary}
    {opened : Dictionary × LoginState} (h : open_spd lib verifier response = .ok opened) :
    ∃ status, get_dict response "Status" = .ok status ∧ opened.2 = after_proof status := by
  simp only [open_spd, bind, Except.bind] at h
  split at h
  · cases h
  split at h
  · cases h
  split at h
  · cases h
  split at h
  · cases h
  split at h
  · cases h
  split at h
  · cases h
  · rename_i status hstatus
    obtain rfl := Except.ok.inj h
    cases hget : get_dict response "Status" with
    | error e =>
        rw [hget] at hstatus
        cases hstatus
    | ok status' =>
        rw [hget] at hstatus
        obtain rfl := Except.ok.inj hstatus
        exact ⟨_, rfl, rfl⟩

theorem plist_request_wp {req : Request} (h : x.Allows (.send req)) :
    (plist_request lib.plist req).run.wp (exchanging lib) (OnOk fun response x' => ∃ r,
      read_response lib.plist r = .ok response ∧ x' = x.advance lib ⟨.send req, .ok r⟩) x := by
  refine wp_try (wp_adapt (send_wp h)) ?_
  rintro r _ rfl
  cases hread : read_response lib.plist r with
  | error e => trivial
  | ok response => exact ⟨r, hread, rfl⟩

-- The password is proved, and the answer says whether a code is wanted.
theorem login_inner_wp {password : Str} (hrefused : x.refused = acct.last_error)
    (hnumbers : ∀ n ∈ acct.trusted_phone_numbers.getD [], n.id ∈ x.numbers)
    (hdemanded : x.demanded = false) (hsigned : x.signed_in = x.accepted)
    (hbudget : x.asked + left ≤ MAX_ASKED + 1) :
    (login_inner lib acct password).run.wp (exchanging lib)
      (OnOk fun acct' x' => Standing acct' left x') x := by
  refine wp_quiet (anisette_data_wp _ _) fun anisette => wp_lift_bind fun url _ => ?_
  refine wp_quiet random_wp fun a => wp_try (wp_adapt (plist_request_wp ⟨hsigned, hdemanded⟩)) ?_
  rintro response _ ⟨r, -, rfl⟩
  refine wp_context_bind fun response _ => wp_lift_bind fun proof _ => ?_
  refine wp_try (wp_adapt (plist_request_wp ?_)) ?_
  · change (x.demanded && true) = false
    rw [hdemanded]
    rfl
  rintro response2 _ ⟨r2, hread, rfl⟩
  refine wp_context_bind fun response2' hcheck => wp_lift_bind fun opened hopened => ?_
  obtain ⟨status, hstatus, hstate⟩ := open_spd_status hopened
  have hdemands : demands lib (.send (.complete url acct.email proof.2.proof proof.1
      anisette.get_client_provided_data)) (.ok r2) = some (after_proof status).wants_code := by
    simp only [demands, proof_status, hread, hcheck, hstatus, bind, Except.bind]
  obtain ⟨spd, login_state⟩ := opened
  dsimp only at hstate
  subst hstate
  have hstate := after_proof_cases status
  refine wp_pure_ok ⟨hrefused, hnumbers, ?_, ?_, ?_, ?_⟩
  · change (demands lib (.send (.complete url acct.email proof.2.proof proof.1
      anisette.get_client_provided_data)) (.ok r2)).getD _ = _
    rw [hdemands]
    rfl
  · change x.signed_in + 1 = x.accepted + if after_proof status = .needs_login then 0 else 1
    have hlogin : after_proof status ≠ .needs_login := by
      rcases hstate with h | h | h | ⟨s, h⟩ <;> rw [h] <;> simp
    rw [if_neg hlogin, hsigned]
  · rintro id hid
    change (after_proof status).number = some id at hid
    rcases hstate with h | h | h | ⟨s, h⟩ <;> rw [h] at hid <;> cases hid
    exact .inl rfl
  · have hasks : (after_proof status).asks = false := by
      rcases hstate with h | h | h | ⟨s, h⟩ <;> rw [h] <;> rfl
    change x.asked + left ≤ MAX_ASKED + if (after_proof status).asks then 0 else 1
    rw [hasks]
    exact hbudget

end Proof

section Loop

variable {lib : Libs} {acct : AppleAccount} {left : Nat} {x : Exchange}

-- After an answer of the user the account stands as before, and has shown its last error.
theorem ask_user_wp (h : Standing acct (left + 1) x) (hasks : acct.login_state.asks = true)
    (hwants : acct.login_state.wants_code = true) (unknown : Bool) (selected : Option UInt32) :
    (ask_user acct unknown selected).run.wp (exchanging lib) (OnOk fun asked x' =>
      asked.1 = { acct with last_error := none } ∧ Told asked.1 left x' ∧ x'.numbers = x.numbers ∧
      ∀ code, asked.2 = .submit_code code → unknown = false →
        x'.given = some ((selected.map Way.number).getD .devices, code)) x := by
  have htold := h.told hwants
  have hasked : x.asked + 1 + left ≤ MAX_ASKED := by
    have hbudget := h.budget
    rw [hasks] at hbudget
    simp only [if_true] at hbudget
    omega
  have hallowed : x.demanded = true ∧ x.asked < MAX_ASKED ∧ acct.last_error = x.refused :=
    ⟨htold.demanded, by omega, htold.refused.symm⟩
  refine ⟨hallowed, ?_⟩
  rintro (e | response) x' rfl
  · trivial
  have hafter : ∀ y : Exchange, y.refused = none → y.numbers = x.numbers → y.demanded = x.demanded →
      y.signed_in = x.signed_in → y.accepted = x.accepted → y.asked = x.asked + 1 →
      Told { acct with last_error := none } left y := fun y h1 h2 h3 h4 h5 h6 =>
    ⟨h1, h2 ▸ htold.numbers, h3.trans htold.demanded, by rw [h4, h5, htold.signed_in], by omega⟩
  cases response with
  | submit_code code =>
      refine ⟨rfl, hafter _ rfl rfl rfl rfl rfl rfl, rfl, ?_⟩
      rintro code' hcode hknown
      obtain rfl := TwoFactorCallbackResponse.submit_code.inj hcode
      subst hknown
      cases selected <;> rfl
  | send_sms id => exact ⟨rfl, hafter _ rfl rfl rfl rfl rfl rfl, rfl, fun _ h => nomatch h⟩
  | send_to_devices => exact ⟨rfl, hafter _ rfl rfl rfl rfl rfl rfl, rfl, fun _ h => nomatch h⟩
  | resend_code => exact ⟨rfl, hafter _ rfl rfl rfl rfl rfl rfl, rfl, fun _ h => nomatch h⟩
  | abort => exact ⟨rfl, hafter _ rfl rfl rfl rfl rfl rfl, rfl, fun _ h => nomatch h⟩

theorem choose_number_wp (h : Told acct left x) (id : UInt32) :
    (choose_number acct id).run.wp (exchanging lib) (OnOk fun acct' x' => Standing acct' left x') x := by
  refine wp_lift_bind fun login_state hstate => ?_
  unfold select_number at hstate
  split at hstate
  · rename_i number hfind
    obtain rfl := Except.ok.inj hstate
    refine wp_pure_ok (h.standing rfl ?_)
    rintro _ ⟨⟩
    exact .inr (h.numbers number (List.mem_of_find?_eq_some hfind))
  · cases hstate

theorem turn_wp {password : Str} (h : Standing acct (left + 1) x)
    (hnot : acct.login_state ≠ .logged_in) :
    (turn lib password acct).run.wp (exchanging lib) (OnOk fun acct' x' => Standing acct' left x') x := by
  unfold turn
  split
  case h_1 hstate => exact absurd hstate hnot
  case h_2 hstate =>
    refine wp_try (get_trusted_numbers_wp (h.told (by rw [hstate]; rfl))) ?_
    rintro acct x ⟨htold, -, -⟩
    refine wp_try (wp_adapt (send_trusted_device_2fa_wp htold)) ?_
    rintro - x htold
    exact wp_pure_ok (htold.standing rfl fun _ hnumber => nomatch hnumber)
  case h_3 hstate =>
    refine wp_try (ask_user_wp h (by rw [hstate]; rfl) (by rw [hstate]; rfl) false none) ?_
    rintro ⟨_, response⟩ x ⟨rfl, htold, hnumbers, hgiven⟩
    cases response with
    | submit_code code => exact wp_adapt (verify_trusted_device_2fa_wp htold (hgiven code rfl rfl))
    | send_sms id => exact choose_number_wp htold id
    | send_to_devices => exact wp_pure_ok (htold.standing rfl fun _ hnumber => nomatch hnumber)
    | resend_code => exact wp_pure_ok (htold.standing rfl fun _ hnumber => nomatch hnumber)
    | abort => exact wp_throw
  case h_4 id hstate =>
    have hid := h.number id (by rw [hstate]; rfl)
    refine wp_try (get_trusted_numbers_wp (h.told (by rw [hstate]; rfl))) ?_
    rintro acct x ⟨htold, -, hnumbers⟩
    exact wp_adapt (send_sms_2fa_wp htold (hid.imp_right (hnumbers id)))
  case h_5 id hstate =>
    have hid := h.number id (by rw [hstate]; rfl)
    refine wp_try (ask_user_wp h (by rw [hstate]; rfl) (by rw [hstate]; rfl) false (some id)) ?_
    rintro ⟨_, response⟩ x ⟨rfl, htold, hnumbers, hgiven⟩
    rw [← hnumbers] at hid
    cases response with
    | submit_code code => exact wp_adapt (verify_sms_2fa_wp htold hid (hgiven code rfl rfl))
    | send_sms id => exact choose_number_wp htold id
    | send_to_devices => exact wp_pure_ok (htold.standing rfl fun _ hnumber => nomatch hnumber)
    | resend_code =>
        refine wp_pure_ok (htold.standing rfl ?_)
        rintro _ ⟨⟩
        exact hid
    | abort => exact wp_throw
  case h_6 s hstate =>
    split
    · exact wp_throw
    · refine wp_pure_ok ⟨h.refused, h.numbers, ?_, ?_, nofun, ?_⟩
      · rw [h.demanded, hstate]
        rfl
      · rw [h.signed_in, hstate]
        rfl
      · have hbudget := h.budget
        rw [hstate] at hbudget
        exact Nat.le_of_succ_le hbudget
  case h_7 hstate =>
    have hdemanded := h.demanded
    have hsigned := h.signed_in
    have hbudget := h.budget
    rw [hstate] at hdemanded hsigned hbudget
    exact wp_adapt (login_inner_wp h.refused h.numbers hdemanded hsigned (Nat.le_of_succ_le hbudget))
  case h_8 hstate =>
    refine wp_try (ask_user_wp h (by rw [hstate]; rfl) (by rw [hstate]; rfl) true none) ?_
    rintro ⟨_, response⟩ x ⟨rfl, htold, hnumbers, -⟩
    cases response with
    | submit_code code => exact wp_throw
    | send_sms id => exact choose_number_wp htold id
    | send_to_devices => exact wp_pure_ok (htold.standing rfl fun _ hnumber => nomatch hnumber)
    | resend_code => exact wp_throw
    | abort => exact wp_throw

-- The loop ends signed in, with no code left to give.
theorem login_loop_wp {password : Str} (h : Standing acct left x) :
    (login_loop lib password left acct).run.wp (exchanging lib) (OnOk fun acct' x' =>
      acct'.login_state = .logged_in ∧ x'.demanded = false ∧ x'.signed_in = x'.accepted + 1) x := by
  induction left generalizing acct x with
  | zero => exact wp_throw
  | succ left ih =>
      unfold login_loop
      split
      · rename_i hstate
        refine wp_pure_ok ⟨hstate, ?_, ?_⟩
        · rw [h.demanded, hstate]
          rfl
        · rw [h.signed_in, hstate]
          rfl
      · rename_i hnot
        exact wp_try (turn_wp h hnot) fun acct' x' h' => ih h'

theorem fetch_url_bag_wp : (fetch_url_bag lib.plist).run.wp (exchanging lib) (OnOk fun _ x => x = {}) {} := by
  refine wp_try (wp_adapt (send_wp (nomatch ·))) ?_
  rintro r _ rfl
  refine wp_context_bind fun text _ => ?_
  split
  · exact wp_throw
  · split
    · exact wp_throw
    · exact wp_pure_ok rfl

-- Every sign-in keeps to the exchange.
theorem login_wp (email password : Str) :
    (login lib email password).run.wp (exchanging lib) (OnOk fun acct x =>
      acct.login_state = .logged_in ∧ x.demanded = false ∧ x.signed_in = x.accepted + 1) {} := by
  unfold login
  refine wp_quiet fetch_url_bag_wp fun url_bag => ?_
  unfold login_impl
  exact wp_try (wp_adapt (login_inner_wp rfl (List.forall_mem_nil _) rfl rfl (Nat.le_refl _)))
    fun acct x h => login_loop_wp h

end Loop

end AltKeeper.GrandSlam
