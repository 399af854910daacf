import AltKeeper.Developer
import AltKeeper.GrandSlam.Calls

-- The device that a session shows to Apple: that of the data it is given, in every request.
namespace AltKeeper.GrandSlam

open Prog (OnOk wp_adapt wp_lift_bind wp_context_bind wp_throw wp_try)

def DEVICE_ID : Str := "X-Mme-Device-Id".toList

-- What a request says of the device; the addresses of the service are asked for without it.
def Request.Shows (device : Str) : Request → Prop
  | .url_bag => True
  | .begin_proof _ _ _ cpd => cpd.lookup DEVICE_ID = some device
  | .complete _ _ _ _ cpd => cpd.lookup DEVICE_ID = some device
  | .send_device_code _ headers => headers.lookup DEVICE_ID = some device
  | .validate_code _ headers _ => headers.lookup DEVICE_ID = some device
  | .trusted_numbers headers => headers.lookup DEVICE_ID = some device
  | .put_phone headers _ => headers.lookup DEVICE_ID = some device
  | .post_code headers _ _ => headers.lookup DEVICE_ID = some device
  | .app_tokens _ _ _ _ _ _ cpd => cpd.lookup DEVICE_ID = some device
  | .developer _ _ headers => headers.lookup DEVICE_ID = some device

def Call.Shows (device : Str) : Call → Prop
  | .send req => req.Shows device
  | _ => True

-- Every request shows the device, as long as the data that is given is the device's.
def showing (device : Str) : Prog.Protocol Answer Unit where
  allows _ c := c.Shows device
  step _ c r _ :=
    match c, r with
    | .get_anisette_data _, .ok a => a.device_unique_identifier = device
    | _, _ => True

section Headers

variable {a : AnisetteData} {headers : Headers} {acct : AppleAccount}

theorem client_provided_device (a : AnisetteData) :
    a.get_client_provided_data.lookup DEVICE_ID = some a.device_unique_identifier := rfl

theorem header_value_eq {s t : Str} (h : header_value s = .ok t) : t = s := by
  unfold header_value at h
  split at h
  · exact (Except.ok.inj h).symm
  · cases h

theorem header_map_device (h : a.get_header_map = .ok headers) :
    headers.lookup DEVICE_ID = some a.device_unique_identifier := by
  simp only [AnisetteData.get_header_map, AnisetteData.get_headers, List.mapM_cons] at h
  obtain ⟨device, hdevice, h⟩ := bind_eq_ok.mp h
  obtain ⟨rest, -, h⟩ := bind_eq_ok.mp h
  obtain ⟨value, hvalue, hdevice⟩ := bind_eq_ok.mp hdevice
  obtain rfl := Except.ok.inj h
  obtain rfl := Except.ok.inj hdevice
  rw [header_value_eq hvalue]
  rfl

theorem two_factor_device (h : build_2fa_headers acct a = .ok headers) :
    headers.lookup DEVICE_ID = some a.device_unique_identifier := by
  obtain ⟨map, hmap, h⟩ := bind_eq_ok.mp h
  cases hspd : acct.spd with
  | none =>
      rw [hspd] at h
      cases h
  | some spd =>
      rw [hspd] at h
      obtain ⟨adsid, -, h⟩ := bind_eq_ok.mp h
      obtain ⟨token, -, h⟩ := bind_eq_ok.mp h
      obtain ⟨identity, -, h⟩ := bind_eq_ok.mp h
      obtain ⟨rinfo, -, h⟩ := bind_eq_ok.mp h
      obtain rfl := Except.ok.inj h
      rw [List.lookup_append, header_map_device hmap]
      rfl

end Headers

section Calls

variable {lib : Libs} {device : Str} {acct : AppleAccount}

abbrev Shown {α : Type} (device : Str) (x : SignIn α) : Prop :=
  x.run.wp (showing device) (OnOk fun _ _ => True) ()

theorem anisette_data_shows (gs : Dictionary) (why : String) :
    (anisette_data gs why).run.wp (showing device)
      (OnOk fun a _ => a.device_unique_identifier = device) () := by
  refine wp_adapt ⟨trivial, ?_⟩
  rintro (e | a) _ h
  · trivial
  · exact h

theorem send_shows {req : Request} (h : req.Shows device) : Shown device (send req) := by
  refine ⟨h, ?_⟩
  rintro (e | r) - - <;> trivial

theorem random_shows : Shown device (ExceptT.lift (perform .random)) := ⟨trivial, fun _ _ _ => trivial⟩

theorem plist_request_shows {req : Request} (h : req.Shows device) :
    Shown device (plist_request lib.plist req) := by
  refine wp_try (wp_adapt (send_shows h)) fun r _ _ => ?_
  cases read_response lib.plist r <;> trivial

theorem fetch_url_bag_shows : Shown device (fetch_url_bag lib.plist) := by
  refine wp_try (wp_adapt (send_shows trivial)) fun r _ _ => wp_context_bind fun text _ => ?_
  split
  · exact wp_throw
  · split <;> trivial

-- The data is asked for, and the headers of a code's request are made of it.
theorem two_factor_shows {α : Type} {f : Headers → SignIn α}
    (hf : ∀ headers : Headers, headers.lookup DEVICE_ID = some device → Shown device (f headers)) :
    Shown device (do f (← build_2fa_headers acct (← anisette_data acct.url_bag FOR_2FA))) := by
  refine wp_try (anisette_data_shows _ _) ?_
  rintro a - rfl
  exact wp_lift_bind fun headers hheaders => hf headers (two_factor_device hheaders)

theorem send_trusted_device_2fa_shows (acct : AppleAccount) :
    Shown device (send_trusted_device_2fa acct) := by
  refine wp_try (anisette_data_shows _ _) ?_
  rintro a - rfl
  refine wp_lift_bind fun url _ => wp_lift_bind fun headers hheaders => ?_
  refine wp_try (wp_adapt (send_shows (two_factor_device hheaders))) fun r _ _ => ?_
  exact wp_lift_bind fun _ _ => trivial

theorem verify_trusted_device_2fa_shows (acct : AppleAccount) (code : Str) :
    Shown device (verify_trusted_device_2fa lib acct code) := by
  refine wp_try (anisette_data_shows _ _) ?_
  rintro a - rfl
  refine wp_lift_bind fun url _ => wp_lift_bind fun headers hheaders => ?_
  refine wp_try (wp_adapt (send_shows (two_factor_device hheaders))) fun r _ _ => ?_
  exact wp_lift_bind fun verdict _ => by cases verdict <;> trivial

theorem send_sms_2fa_shows (acct : AppleAccount) (id : UInt32) :
    Shown device (send_sms_2fa lib acct id) :=
  two_factor_shows fun headers hheaders => wp_try (wp_adapt (send_shows hheaders)) fun r _ _ =>
    wp_lift_bind fun verdict _ => by cases verdict <;> trivial

theorem verify_sms_2fa_shows (acct : AppleAccount) (code : Str) (id : UInt32) :
    Shown device (verify_sms_2fa lib acct code id) :=
  two_factor_shows fun headers hheaders => wp_try (wp_adapt (send_shows hheaders)) fun r _ _ =>
    wp_lift_bind fun verdict _ => by cases verdict <;> trivial

theorem get_trusted_numbers_shows (acct : AppleAccount) :
    Shown device (get_trusted_numbers lib acct) := by
  unfold get_trusted_numbers
  split
  · trivial
  · exact two_factor_shows fun headers hheaders => wp_try (send_shows hheaders) fun r _ _ =>
      wp_lift_bind fun numbers _ => trivial

end Calls

section Login

variable {lib : Libs} {device : Str}

theorem login_inner_shows (acct : AppleAccount) (password : Str) :
    Shown device (login_inner lib acct password) := by
  refine wp_try (anisette_data_shows _ _) ?_
  rintro a - rfl
  refine wp_lift_bind fun url _ => wp_try random_shows fun random _ _ => ?_
  refine wp_try (wp_adapt (plist_request_shows (client_provided_device a))) fun response _ _ => ?_
  refine wp_context_bind fun response _ => wp_lift_bind fun proof _ => ?_
  refine wp_try (wp_adapt (plist_request_shows (client_provided_device a))) fun response2 _ _ => ?_
  exact wp_context_bind fun response2 _ => wp_lift_bind fun opened _ => trivial

theorem ask_user_shows (acct : AppleAccount) (unknown : Bool) (selected : Option UInt32) :
    Shown device (ask_user acct unknown selected) := by
  refine ⟨trivial, ?_⟩
  rintro (e | response) - - <;> trivial

theorem choose_number_shows (acct : AppleAccount) (id : UInt32) :
    Shown device (choose_number acct id) :=
  wp_lift_bind fun _ _ => trivial

theorem turn_shows (password : Str) (acct : AppleAccount) :
    Shown device (turn lib password acct) := by
  unfold turn
  split
  · trivial
  · refine wp_try (get_trusted_numbers_shows acct) fun acct _ _ => ?_
    exact wp_try (wp_adapt (send_trusted_device_2fa_shows acct)) fun _ _ _ => trivial
  · refine wp_try (ask_user_shows acct false none) fun ⟨acct, response⟩ _ _ => ?_
    cases response with
    | submit_code code => exact wp_adapt (verify_trusted_device_2fa_shows acct code)
    | send_sms id => exact choose_number_shows acct id
    | _ => trivial
  · refine wp_try (get_trusted_numbers_shows acct) fun acct _ _ => ?_
    exact wp_adapt (send_sms_2fa_shows acct _)
  · refine wp_try (ask_user_shows acct false (some _)) fun ⟨acct, response⟩ _ _ => ?_
    cases response with
    | submit_code code => exact wp_adapt (verify_sms_2fa_shows acct code _)
    | send_sms id => exact choose_number_shows acct id
    | _ => trivial
  · split <;> trivial
  · exact wp_adapt (login_inner_shows acct password)
  · refine wp_try (ask_user_shows acct true none) fun ⟨acct, response⟩ _ _ => ?_
    cases response with
    | send_sms id => exact choose_number_shows acct id
    | _ => trivial

theorem login_loop_shows (password : Str) (left : Nat) (acct : AppleAccount) :
    Shown device (login_loop lib password left acct) := by
  induction left generalizing acct with
  | zero => trivial
  | succ left ih =>
      unfold login_loop
      split
      · trivial
      · exact wp_try (turn_shows password acct) fun acct _ _ => ih acct

theorem login_shows (email password : Str) : Shown device (login lib email password) := by
  refine wp_try fetch_url_bag_shows fun url_bag _ _ => ?_
  refine wp_try (wp_adapt (login_inner_shows _ password)) fun acct _ _ => ?_
  exact login_loop_shows password MAX_ATTEMPTS acct

end Login

section Services

open Developer

variable {lib : Developer.Libs} {device : Str} {sess : DeveloperSession}

theorem session_device {a : AnisetteData} {headers : Headers} (h : sess.header_map a = .ok headers) :
    headers.lookup DEVICE_ID = some a.device_unique_identifier := by
  obtain ⟨map, hmap, h⟩ := bind_eq_ok.mp h
  obtain ⟨token, -, h⟩ := bind_eq_ok.mp h
  obtain ⟨adsid, -, h⟩ := bind_eq_ok.mp h
  obtain rfl := Except.ok.inj h
  rw [List.lookup_append, header_map_device hmap]
  rfl

theorem from_account_shows (acct : AppleAccount) : Shown device (from_account lib acct) := by
  refine wp_try (m := fun _ _ => True) (wp_adapt ?_) fun token _ _ => ?_
  · refine wp_try (anisette_data_shows _ _) ?_
    rintro a - rfl
    refine wp_lift_bind fun made hmade => ?_
    obtain ⟨request, session_key⟩ := made
    have hshows : request.Shows a.device_unique_identifier := by
      obtain ⟨_, _, _, _, _, -, -, -, -, rfl⟩ := token_request_ok hmade
      exact client_provided_device a
    refine wp_try (wp_adapt (plist_request_shows hshows)) fun resp _ _ => ?_
    cases read_token lib (token_name "xcode.auth".toList) session_key resp <;> trivial
  · split
    · trivial
    · exact wp_lift_bind fun adsid _ => trivial

theorem send_dev_request_internal_shows (url : Str) (body : Dictionary) :
    Shown device (send_dev_request_internal lib sess url body) := by
  refine wp_try (x := ExceptT.lift (perform .new_v4)) (m := fun _ _ => True)
    ⟨trivial, fun _ _ _ => trivial⟩ fun request_id _ _ => ?_
  refine wp_try (m := fun headers _ => headers.lookup DEVICE_ID = some device) (wp_adapt ?_)
    fun headers _ hheaders => ?_
  · have hdata : (ExceptT.mk (perform (.get_anisette_data sess.url_bag)) : SignIn AnisetteData).run.wp
        (showing device) (OnOk fun a _ => a.device_unique_identifier = device) () := by
      refine ⟨trivial, ?_⟩
      rintro (e | a) _ h
      · trivial
      · exact h
    refine wp_try hdata ?_
    rintro a - rfl
    cases hheaders : sess.header_map a with
    | error e => trivial
    | ok headers => exact session_device hheaders
  · exact wp_try (send_shows hheaders) fun r _ _ => wp_lift_bind fun dict _ => trivial

theorem send_dev_request_shows {α : Type} (read : Node → Except Str α) (url : Str) (body : Dictionary)
    (key : String) : Shown device (send_dev_request lib sess read url body key) := by
  refine wp_try (send_dev_request_internal_shows url body) ?_
  rintro ⟨dict, server_error⟩ _ _
  dsimp only
  cases dev_result read key dict server_error <;> trivial

theorem list_teams_shows : Shown device (list_teams lib sess) :=
  wp_adapt (send_dev_request_shows _ _ _ _)

theorem list_app_ids_shows (team : DeveloperTeam) (device_type : Option DeveloperDeviceType) :
    Shown device (list_app_ids lib sess team device_type) := by
  refine wp_try (m := fun _ _ => True) (wp_adapt ?_) fun response _ _ => ?_
  · refine wp_try (send_dev_request_internal_shows _ _) ?_
    rintro ⟨dict, _ | err⟩ _ _ <;> trivial
  · cases lib.app_ids response <;> trivial

theorem download_shows (team : DeveloperTeam) (app : Developer.AppId)
    (device_type : Option DeveloperDeviceType) :
    Shown device (download_team_provisioning_profile lib sess team app device_type) :=
  wp_adapt (send_dev_request_shows _ _ _ _)

end Services

end AltKeeper.GrandSlam
