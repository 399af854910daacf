import AltKeeper.Developer
import AltKeeper.GrandSlam.Calls

-- The addresses of the service: a session is told them once, and asks for its data with no others.
namespace AltKeeper.GrandSlam

open Prog (OnOk wp_adapt wp_context_bind wp_lift_bind wp_throw wp_try)

-- The addresses that an answer tells.
def told (plist : Octets → Option Dictionary) (r : Except Report Reply) : Option Dictionary :=
  r.toOption.bind fun r => r.text.toOption.bind fun text =>
    (plist (Utf8.encode text)).bind fun dict => (dict.lookup "urls".toList).bind Node.as_dictionary

-- Data is asked for with the addresses that were told last.
def bagged (plist : Octets → Option Dictionary) : Prog.Protocol Answer (Option Dictionary) where
  allows url_bag c :=
    match c with
    | .get_anisette_data gs => url_bag = some gs
    | _ => True
  step url_bag c r url_bag' :=
    match c, r with
    | .send .url_bag, r => url_bag' = told plist r
    | _, _ => url_bag' = url_bag

-- The addresses that were told stay what they were.
abbrev Bagged {α : Type} (plist : Octets → Option Dictionary) (gs : Dictionary) (x : SignIn α)
    (post : α → Prop) : Prop :=
  x.run.wp (bagged plist) (OnOk fun a url_bag => url_bag = some gs ∧ post a) (some gs)

section Calls

variable {α β : Type} {plist : Octets → Option Dictionary} {gs : Dictionary} {post : β → Prop}

theorem Bagged.bind {x : SignIn α} {f : α → SignIn β} {m : α → Prop} (hx : Bagged plist gs x m)
    (hf : ∀ a, m a → Bagged plist gs (f a) post) : Bagged plist gs (x >>= f) post := by
  refine wp_try hx ?_
  rintro a _ ⟨rfl, ha⟩
  exact hf a ha

theorem fetch_url_bag_told (url_bag : Option Dictionary) :
    (fetch_url_bag plist).run.wp (bagged plist) (OnOk fun gs url_bag' => url_bag' = some gs)
      url_bag := by
  have hsent : (context "Failed to fetch URL Bag" (send .url_bag)).run.wp (bagged plist)
      (OnOk fun r url_bag' => url_bag' = told plist (.ok r)) url_bag := by
    refine wp_adapt ⟨trivial, ?_⟩
    rintro (e | r) _ rfl
    · trivial
    · rfl
  refine wp_try hsent ?_
  rintro r _ rfl
  refine wp_context_bind fun text htext => ?_
  cases hdict : plist (Utf8.encode text) with
  | none => exact wp_throw
  | some dict =>
      dsimp only
      cases hurls : (dict.lookup "urls".toList).bind Node.as_dictionary with
      | none => exact wp_throw
      | some urls =>
          change told plist (.ok r) = some urls
          simp only [told, Except.toOption, htext, hdict, Option.bind_some, hurls]

theorem data_bagged (gs : Dictionary) :
    Bagged plist gs (ExceptT.mk (perform (.get_anisette_data gs))) fun _ => True := by
  refine ⟨rfl, ?_⟩
  rintro (e | a) _ rfl
  · trivial
  · exact ⟨rfl, trivial⟩

theorem anisette_data_bagged (gs : Dictionary) (why : String) :
    Bagged plist gs (anisette_data gs why) fun _ => True := wp_adapt (data_bagged gs)

-- A call that neither tells addresses nor needs them.
theorem perform_bagged {c : Call} (hc : (bagged plist).allows (some gs) c)
    (hstep : ∀ r url_bag, (bagged plist).step (some gs) c r url_bag → url_bag = some gs) :
    Bagged plist gs (ExceptT.lift (perform c)) fun _ => True :=
  ⟨hc, fun r url_bag h => ⟨hstep r url_bag h, trivial⟩⟩

theorem send_bagged {req : Request} (h : req ≠ .url_bag) :
    Bagged plist gs (send req) fun _ => True := by
  refine ⟨trivial, ?_⟩
  rintro (e | r) url_bag hstep
  · trivial
  · refine ⟨?_, trivial⟩
    cases req with
    | url_bag => cases h rfl
    | _ => exact hstep

theorem plist_request_bagged {req : Request} (h : req ≠ .url_bag) :
    Bagged plist gs (plist_request plist req) fun _ => True := by
  refine Bagged.bind (wp_adapt (send_bagged h)) fun r _ => ?_
  cases read_response plist r with
  | error e => trivial
  | ok response => exact ⟨rfl, trivial⟩

end Calls

section Login

variable {lib : Libs} {acct : AppleAccount}

-- What is done for an account is done with its addresses, and leaves it with them.
abbrev Keeps (lib : Libs) (acct : AppleAccount) (x : SignIn AppleAccount) : Prop :=
  Bagged lib.plist acct.url_bag x fun acct' => acct'.url_bag = acct.url_bag

theorem two_factor_bagged {α : Type} {f : Headers → SignIn α} {post : α → Prop}
    (hf : ∀ headers, Bagged lib.plist acct.url_bag (f headers) post) :
    Bagged lib.plist acct.url_bag
      (do f (← build_2fa_headers acct (← anisette_data acct.url_bag FOR_2FA))) post :=
  Bagged.bind (anisette_data_bagged _ _) fun _ _ => wp_lift_bind fun headers _ => hf headers

theorem send_trusted_device_2fa_bagged :
    Bagged lib.plist acct.url_bag (send_trusted_device_2fa acct) fun _ => True := by
  refine Bagged.bind (anisette_data_bagged _ _) fun a _ => ?_
  refine wp_lift_bind fun url _ => wp_lift_bind fun headers _ => ?_
  refine Bagged.bind (wp_adapt (send_bagged nofun)) fun r _ => ?_
  exact wp_lift_bind fun _ _ => ⟨rfl, trivial⟩

theorem verify_trusted_device_2fa_keeps (code : Str) :
    Keeps lib acct (verify_trusted_device_2fa lib acct code) := by
  refine Bagged.bind (anisette_data_bagged _ _) fun a _ => ?_
  refine wp_lift_bind fun url _ => wp_lift_bind fun headers _ => ?_
  refine Bagged.bind (wp_adapt (send_bagged nofun)) fun r _ => ?_
  exact wp_lift_bind fun verdict _ => by cases verdict <;> exact ⟨rfl, rfl⟩

theorem send_sms_2fa_keeps (id : UInt32) : Keeps lib acct (send_sms_2fa lib acct id) :=
  two_factor_bagged fun _ => Bagged.bind (wp_adapt (send_bagged nofun)) fun _ _ =>
    wp_lift_bind fun verdict _ => by cases verdict <;> exact ⟨rfl, rfl⟩

theorem verify_sms_2fa_keeps (code : Str) (id : UInt32) :
    Keeps lib acct (verify_sms_2fa lib acct code id) :=
  two_factor_bagged fun _ => Bagged.bind (wp_adapt (send_bagged nofun)) fun _ _ =>
    wp_lift_bind fun verdict _ => by cases verdict <;> exact ⟨rfl, rfl⟩

theorem get_trusted_numbers_keeps : Keeps lib acct (get_trusted_numbers lib acct) := by
  unfold get_trusted_numbers
  split
  · exact ⟨rfl, rfl⟩
  · exact two_factor_bagged fun _ => Bagged.bind (send_bagged nofun) fun _ _ =>
      wp_lift_bind fun _ _ => ⟨rfl, rfl⟩

theorem login_inner_keeps (password : Str) : Keeps lib acct (login_inner lib acct password) := by
  refine Bagged.bind (anisette_data_bagged _ _) fun a _ => wp_lift_bind fun url _ => ?_
  refine Bagged.bind (perform_bagged trivial fun _ _ h => h) fun random _ => ?_
  refine Bagged.bind (wp_adapt (plist_request_bagged nofun)) fun response _ => ?_
  refine wp_context_bind fun response _ => wp_lift_bind fun proof _ => ?_
  refine Bagged.bind (wp_adapt (plist_request_bagged nofun)) fun response2 _ => ?_
  exact wp_context_bind fun response2 _ => wp_lift_bind fun opened _ => ⟨rfl, rfl⟩

theorem ask_user_bagged (unknown : Bool) (selected : Option UInt32) :
    Bagged lib.plist acct.url_bag (ask_user acct unknown selected) fun r =>
      r.1.url_bag = acct.url_bag := by
  refine ⟨trivial, ?_⟩
  rintro (e | response) _ rfl
  · trivial
  · exact ⟨rfl, rfl⟩

theorem choose_number_keeps (id : UInt32) : Keeps lib acct (choose_number acct id) :=
  wp_lift_bind fun _ _ => ⟨rfl, rfl⟩

-- The same, of what is done for the account that another part left.
theorem Keeps.of_eq {acct' : AppleAccount} {x : SignIn AppleAccount}
    (h : acct'.url_bag = acct.url_bag) (hx : Keeps lib acct' x) : Keeps lib acct x := by
  rwa [Keeps, h] at hx

theorem turn_keeps (password : Str) : Keeps lib acct (turn lib password acct) := by
  unfold turn
  split
  · exact ⟨rfl, rfl⟩
  · refine Bagged.bind get_trusted_numbers_keeps fun acct' hacct => ?_
    rw [← hacct]
    exact Bagged.bind (wp_adapt send_trusted_device_2fa_bagged) fun _ _ => ⟨rfl, rfl⟩
  · refine Bagged.bind (ask_user_bagged false none) fun ⟨acct', response⟩ hacct => ?_
    cases response with
    | submit_code code => exact Keeps.of_eq hacct (wp_adapt (verify_trusted_device_2fa_keeps code))
    | send_sms id => exact Keeps.of_eq hacct (choose_number_keeps id)
    | abort => exact wp_throw
    | _ => exact ⟨rfl, hacct⟩
  · refine Bagged.bind get_trusted_numbers_keeps fun acct' hacct => ?_
    exact Keeps.of_eq hacct (wp_adapt (send_sms_2fa_keeps _))
  · refine Bagged.bind (ask_user_bagged false (some _)) fun ⟨acct', response⟩ hacct => ?_
    cases response with
    | submit_code code => exact Keeps.of_eq hacct (wp_adapt (verify_sms_2fa_keeps code _))
    | send_sms id => exact Keeps.of_eq hacct (choose_number_keeps id)
    | abort => exact wp_throw
    | _ => exact ⟨rfl, hacct⟩
  · split
    · exact wp_throw
    · exact ⟨rfl, rfl⟩
  · exact wp_adapt (login_inner_keeps password)
  · refine Bagged.bind (ask_user_bagged true none) fun ⟨acct', response⟩ hacct => ?_
    cases response with
    | send_sms id => exact Keeps.of_eq hacct (choose_number_keeps id)
    | send_to_devices => exact ⟨rfl, hacct⟩
    | _ => exact wp_throw

theorem login_loop_keeps (password : Str) (left : Nat) :
    Keeps lib acct (login_loop lib password left acct) := by
  induction left generalizing acct with
  | zero => trivial
  | succ left ih =>
      unfold login_loop
      split
      · exact ⟨rfl, rfl⟩
      · exact Bagged.bind (turn_keeps password) fun acct' hacct => Keeps.of_eq hacct ih

-- Whatever was told before, a sign-in ends with the addresses that it was told itself.
theorem login_bagged (email password : Str) (url_bag : Option Dictionary) :
    (login lib email password).run.wp (bagged lib.plist)
      (OnOk fun acct url_bag' => url_bag' = some acct.url_bag) url_bag := by
  refine wp_try (fetch_url_bag_told url_bag) ?_
  rintro gs _ rfl
  let acct : AppleAccount := { email, url_bag := gs }
  have hinner : Keeps lib acct (login_inner lib acct password) := login_inner_keeps password
  refine wp_try (wp_adapt hinner) ?_
  rintro acct _ ⟨rfl, hacct⟩
  rw [← hacct]
  refine Prog.wp_mono (login_loop_keeps password MAX_ATTEMPTS) ?_
  rintro (e | acct') _ h
  · trivial
  · exact h.1.trans (congrArg some h.2.symm)

end Login

section Services

open Developer

variable {lib : Developer.Libs} {sess : DeveloperSession}

theorem from_account_bagged (acct : AppleAccount) :
    Bagged lib.grandslam.plist acct.url_bag (from_account lib acct) fun sess =>
      sess.url_bag = acct.url_bag := by
  refine Bagged.bind (m := fun _ => True) (wp_adapt ?_) fun token _ => ?_
  · refine Bagged.bind (anisette_data_bagged _ _) fun a _ => wp_lift_bind fun made hmade => ?_
    obtain ⟨request, session_key⟩ := made
    have hsent : request ≠ .url_bag := by
      obtain ⟨_, _, _, _, _, -, -, -, -, rfl⟩ := token_request_ok hmade
      exact nofun
    refine Bagged.bind (wp_adapt (plist_request_bagged hsent)) fun resp _ => ?_
    cases read_token lib (token_name "xcode.auth".toList) session_key resp with
    | error e => trivial
    | ok token => exact ⟨rfl, trivial⟩
  · split
    · exact wp_throw
    · exact wp_lift_bind fun adsid _ => ⟨rfl, rfl⟩

theorem send_dev_request_internal_bagged (url : Str) (body : Dictionary) :
    Bagged lib.grandslam.plist sess.url_bag (send_dev_request_internal lib sess url body)
      fun _ => True := by
  refine Bagged.bind (perform_bagged trivial fun _ _ h => h) fun request_id _ => ?_
  refine Bagged.bind (m := fun _ => True) (wp_adapt ?_) fun headers _ => ?_
  · refine Bagged.bind (data_bagged _) fun a _ => ?_
    cases sess.header_map a with
    | error e => trivial
    | ok headers => exact ⟨rfl, trivial⟩
  · exact Bagged.bind (send_bagged nofun) fun r _ => wp_lift_bind fun dict _ => ⟨rfl, trivial⟩

theorem send_dev_request_bagged {α : Type} (read : Node → Except Str α) (url : Str)
    (body : Dictionary) (key : String) :
    Bagged lib.grandslam.plist sess.url_bag (send_dev_request lib sess read url body key)
      fun _ => True := by
  refine Bagged.bind (send_dev_request_internal_bagged url body) ?_
  rintro ⟨dict, server_error⟩ -
  dsimp only
  cases dev_result read key dict server_error with
  | error e => trivial
  | ok a => exact ⟨rfl, trivial⟩

theorem list_teams_bagged :
    Bagged lib.grandslam.plist sess.url_bag (list_teams lib sess) fun _ => True :=
  wp_adapt (send_dev_request_bagged _ _ _ _)

theorem list_app_ids_bagged (team : DeveloperTeam) (device_type : Option DeveloperDeviceType) :
    Bagged lib.grandslam.plist sess.url_bag (list_app_ids lib sess team device_type)
      fun _ => True := by
  refine Bagged.bind (m := fun _ => True) (wp_adapt ?_) fun response _ => ?_
  · refine Bagged.bind (send_dev_request_internal_bagged _ _) ?_
    rintro ⟨dict, _ | err⟩ -
    · exact ⟨rfl, trivial⟩
    · exact wp_throw
  · cases lib.app_ids response with
    | error e => trivial
    | ok ids => exact ⟨rfl, trivial⟩

theorem download_bagged (team : DeveloperTeam) (app : Developer.AppId)
    (device_type : Option DeveloperDeviceType) :
    Bagged lib.grandslam.plist sess.url_bag
      (download_team_provisioning_profile lib sess team app device_type) fun _ => True :=
  wp_adapt (send_dev_request_bagged _ _ _ _)

end Services

end AltKeeper.GrandSlam
