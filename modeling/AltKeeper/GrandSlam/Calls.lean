import AltKeeper.GrandSlam.Login

-- What a sign-in can call, part by part, whatever it is told.
namespace AltKeeper.GrandSlam

open Prog (uses_adapt uses_lift_bind uses_try)

-- What is called for a sign-in while the user is not asked.
def Call.of_sign_in : Call → Bool
  | .two_factor_callback _ => false
  | .new_v4 => false
  | .send (.app_tokens _ _ _ _ _ _ _) => false
  | .send (.developer _ _ _) => false
  | _ => true

variable {lib : Libs} {Q : Call → Prop}

theorem url_bag_uses (h : Q (.send .url_bag)) : (fetch_url_bag lib.plist).run.Uses Q := by
  refine uses_try (uses_adapt ⟨h, fun _ => trivial⟩) fun r => uses_lift_bind fun text => ?_
  split
  · trivial
  · split <;> trivial

section Parts

variable (hcalls : ∀ c : Call, c.of_sign_in = true → Q c)

include hcalls

theorem anisette_data_uses (gs : Dictionary) (why : String) : (anisette_data gs why).run.Uses Q :=
  uses_adapt ⟨hcalls _ rfl, fun _ => trivial⟩

theorem send_uses {req : Request} (h : (Call.send req).of_sign_in = true) : (send req).run.Uses Q :=
  ⟨hcalls _ h, fun _ => trivial⟩

theorem plist_request_uses {req : Request} (h : (Call.send req).of_sign_in = true) :
    (plist_request lib.plist req).run.Uses Q := by
  refine uses_try (uses_adapt (send_uses hcalls h)) fun r => ?_
  cases h : read_response lib.plist r <;> trivial

theorem send_trusted_device_2fa_uses (acct : AppleAccount) :
    (send_trusted_device_2fa acct).run.Uses Q :=
  uses_try (anisette_data_uses hcalls _ _) fun _ => uses_lift_bind fun _ => uses_lift_bind fun _ =>
    uses_try (uses_adapt (send_uses hcalls rfl)) fun _ => uses_lift_bind fun _ => trivial

theorem verify_trusted_device_2fa_uses (acct : AppleAccount) (code : Str) :
    (verify_trusted_device_2fa lib acct code).run.Uses Q := by
  refine uses_try (anisette_data_uses hcalls _ _) fun _ => ?_
  refine uses_lift_bind fun _ => uses_lift_bind fun _ => ?_
  refine uses_try (uses_adapt (send_uses hcalls rfl)) fun _ => uses_lift_bind fun verdict => ?_
  cases verdict <;> trivial

theorem send_sms_2fa_uses (acct : AppleAccount) (id : UInt32) :
    (send_sms_2fa lib acct id).run.Uses Q := by
  refine uses_try (anisette_data_uses hcalls _ _) fun _ => uses_lift_bind fun _ => ?_
  refine uses_try (uses_adapt (send_uses hcalls rfl)) fun _ => uses_lift_bind fun verdict => ?_
  cases verdict <;> trivial

theorem verify_sms_2fa_uses (acct : AppleAccount) (code : Str) (id : UInt32) :
    (verify_sms_2fa lib acct code id).run.Uses Q := by
  refine uses_try (anisette_data_uses hcalls _ _) fun _ => uses_lift_bind fun _ => ?_
  refine uses_try (uses_adapt (send_uses hcalls rfl)) fun _ => uses_lift_bind fun verdict => ?_
  cases verdict <;> trivial

theorem get_trusted_numbers_uses (acct : AppleAccount) :
    (get_trusted_numbers lib acct).run.Uses Q := by
  unfold get_trusted_numbers
  split
  · trivial
  · exact uses_try (anisette_data_uses hcalls _ _) fun _ => uses_lift_bind fun _ =>
      uses_try (send_uses hcalls rfl) fun _ => uses_lift_bind fun _ => trivial

theorem login_inner_uses (acct : AppleAccount) (password : Str) :
    (login_inner lib acct password).run.Uses Q := by
  refine uses_try (anisette_data_uses hcalls _ _) fun _ => uses_lift_bind fun _ => ?_
  refine uses_try (x := ExceptT.lift (perform .random)) ⟨hcalls _ rfl, fun _ => trivial⟩ fun _ => ?_
  refine uses_try (uses_adapt (plist_request_uses hcalls rfl)) fun _ => uses_lift_bind fun _ => ?_
  refine uses_lift_bind fun proof => ?_
  refine uses_try (uses_adapt (plist_request_uses hcalls rfl)) fun _ => uses_lift_bind fun _ => ?_
  exact uses_lift_bind fun _ => trivial

variable (hasks : ∀ params, Q (.two_factor_callback params))

include hasks

theorem turn_uses (password : Str) (acct : AppleAccount) : (turn lib password acct).run.Uses Q := by
  have hask : ∀ unknown selected, (ask_user acct unknown selected).run.Uses Q := by
    refine fun unknown selected => ⟨hasks _, ?_⟩
    rintro (e | response) <;> trivial
  have hchoose : ∀ (acct : AppleAccount) id, (choose_number acct id).run.Uses Q :=
    fun _ _ => uses_lift_bind fun _ => trivial
  unfold turn
  split
  · trivial
  · refine uses_try (get_trusted_numbers_uses hcalls acct) fun acct => ?_
    exact uses_try (uses_adapt (send_trusted_device_2fa_uses hcalls acct)) fun _ => trivial
  · refine uses_try (hask false none) fun ⟨acct, response⟩ => ?_
    cases response with
    | submit_code code => exact uses_adapt (verify_trusted_device_2fa_uses hcalls acct code)
    | send_sms id => exact hchoose acct id
    | _ => trivial
  · refine uses_try (get_trusted_numbers_uses hcalls acct) fun acct => ?_
    exact uses_adapt (send_sms_2fa_uses hcalls acct _)
  · refine uses_try (hask false (some _)) fun ⟨acct, response⟩ => ?_
    cases response with
    | submit_code code => exact uses_adapt (verify_sms_2fa_uses hcalls acct code _)
    | send_sms id => exact hchoose acct id
    | _ => trivial
  · split <;> trivial
  · exact uses_adapt (login_inner_uses hcalls acct password)
  · refine uses_try (hask true none) fun ⟨acct, response⟩ => ?_
    cases response with
    | send_sms id => exact hchoose acct id
    | _ => trivial

theorem login_loop_uses (password : Str) (left : Nat) (acct : AppleAccount) :
    (login_loop lib password left acct).run.Uses Q := by
  induction left generalizing acct with
  | zero => trivial
  | succ left ih =>
      unfold login_loop
      split
      · trivial
      · exact uses_try (turn_uses hcalls hasks password acct) fun acct => ih acct

theorem login_uses (email password : Str) : (login lib email password).run.Uses Q := by
  refine uses_try (url_bag_uses (hcalls _ rfl)) fun url_bag => ?_
  refine uses_try (uses_adapt (login_inner_uses hcalls _ password)) fun acct => ?_
  exact login_loop_uses hcalls hasks password MAX_ATTEMPTS acct

end Parts

end AltKeeper.GrandSlam
