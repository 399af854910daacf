import AltKeeper.GrandSlam.Session

-- What a session with the developer services rests on: a token that Apple gave for what it had sent,
-- with a proof of its own, in answer to the proof of the password.
namespace AltKeeper.Developer

open GrandSlam (Answer AppleAccount Call Cause Dictionary Full Headers LoginState SignIn
  TwoFactorCallbackParams TwoFactorCallbackResponse ask_user carry check_grandslam_error
  choose_number get_data get_str get_trusted_numbers login login_inner login_loop open_session open_spd
  prove read_response send_sms_2fa signed_in turn verify_sms_2fa verify_trusted_device_2fa)
open Prog (Both Trace outer runs_adapt runs_inner runs_lift_bind runs_ok runs_outer runs_try)

section Evidence

variable (lib : Libs)

-- The calls that were answered, and how.
abbrev Told := (c : Call) → Answer c → Prop

-- Apple answered the proof of the password with this, under the session's key, and proved that it
-- knows the password's verifier.
def Proved (email password : Str) (told : Told) (spd : Dictionary) : Prop :=
  ∃ a url cpd challenge response c verifier proof response2 m2 encrypted decrypted,
    told .random a ∧
    told (.send (.begin_proof url email (lib.grandslam.compute_public_ephemeral a) cpd))
      (.ok challenge) ∧
    read_response lib.grandslam.plist challenge = .ok response ∧
    prove lib.grandslam a email password response = .ok (c, verifier) ∧
    told (.send (.complete url email verifier.proof c cpd)) (.ok proof) ∧
    read_response lib.grandslam.plist proof = .ok response2 ∧
    get_data response2 "M2" = .ok m2 ∧ verifier.verify_server m2 = .ok () ∧
    get_data response2 "spd" = .ok encrypted ∧ verifier.decrypt_cbc encrypted = .ok decrypted ∧
    lib.grandslam.plist decrypted = some spd

def XCODE : Str := token_name "xcode.auth".toList

-- The token was given in answer to a request under the name and the token of these data, with a
-- checksum that only their session key makes, and came encrypted with that key.
def Granted (told : Told) (spd : Dictionary) (token : AppToken) : Prop :=
  ∃ dsid auth_token session_key url c cpd reply response,
    get_str spd "adsid" = .ok dsid ∧ get_str spd "GsIdmsToken" = .ok auth_token ∧
    get_data spd "sk" = .ok session_key ∧
    told (.send (.app_tokens url XCODE dsid auth_token c
      (lib.hmac session_key (Utf8.encode ("apptokens".toList ++ dsid ++ XCODE))) cpd)) (.ok reply) ∧
    read_response lib.grandslam.plist reply = .ok response ∧
    read_token lib XCODE session_key response = .ok token

-- The session has such a token, and the name that the same data give.
def Backed (email password : Str) (told : Told) (sess : DeveloperSession) : Prop :=
  ∃ spd, Proved lib email password told spd ∧ Granted lib told spd sess.token ∧
    get_str spd "adsid" = .ok sess.adsid

-- The services were asked this with what the session shows, and answered so.
def Answered (told : Told) (sess : DeveloperSession) (url : Str) (body dict : Dictionary) : Prop :=
  ∃ request_id anisette headers reply, sess.header_map anisette = .ok headers ∧
    told (.send (.developer url (dev_body request_id body) headers)) (.ok reply) ∧
    read_dev_response lib reply = .ok dict

variable {lib} {email password : Str} {told told' : Told} {spd : Dictionary}

theorem Proved.mono (h : Proved lib email password told spd)
    (hsub : ∀ c r, c.asks = false → told c r → told' c r) : Proved lib email password told' spd := by
  obtain ⟨a, url, cpd, challenge, response, c, verifier, proof, response2, m2, encrypted, decrypted,
    hrandom, hbegin, hread, hprove, hcomplete, hrest⟩ := h
  exact ⟨a, url, cpd, challenge, response, c, verifier, proof, response2, m2, encrypted, decrypted,
    hsub _ _ rfl hrandom, hsub _ _ rfl hbegin, hread, hprove, hsub _ _ rfl hcomplete, hrest⟩

theorem Granted.mono {token : AppToken} (h : Granted lib told spd token)
    (hsub : ∀ c r, c.asks = false → told c r → told' c r) : Granted lib told' spd token := by
  obtain ⟨dsid, auth_token, session_key, url, c, cpd, reply, response, hdsid, htoken, hkey, hsent,
    hrest⟩ := h
  exact ⟨dsid, auth_token, session_key, url, c, cpd, reply, response, hdsid, htoken, hkey,
    hsub _ _ rfl hsent, hrest⟩

theorem Backed.mono {sess : DeveloperSession} (h : Backed lib email password told sess)
    (hsub : ∀ c r, c.asks = false → told c r → told' c r) : Backed lib email password told' sess := by
  obtain ⟨spd, hproved, hgranted, hadsid⟩ := h
  exact ⟨spd, hproved.mono hsub, hgranted.mono hsub, hadsid⟩

theorem Answered.mono {sess : DeveloperSession} {url : Str} {body dict : Dictionary}
    (h : Answered lib told sess url body dict) (hsub : ∀ c r, c.asks = false → told c r → told' c r) :
    Answered lib told' sess url body dict := by
  obtain ⟨request_id, anisette, headers, reply, hmap, hsent, hdict⟩ := h
  exact ⟨request_id, anisette, headers, reply, hmap, hsub _ _ rfl hsent, hdict⟩

-- What a trace of the session's calls tells.
def told_by (calls : Trace Answer) : Told := fun c r => ⟨c, r⟩ ∈ calls

variable {C : Type} {R : C → Type}

-- The same, of a program that does more than call.
def told_in (past : Trace (Both Answer R)) : Told := fun c r => ⟨.inl c, r⟩ ∈ past

theorem told_in_append (past rest : Trace (Both Answer R)) (c : Call) (r : Answer c)
    (h : told_in past c r) : told_in (past ++ rest) c r :=
  List.mem_append_left rest h

end Evidence

section SignedIn

variable {lib : Libs} {acct acct' : AppleAccount} {password : Str} {calls : Trace Answer}

-- What is left as it was by all that does not prove the password.
structure Continues (acct acct' : AppleAccount) : Prop where
  email : acct'.email = acct.email
  spd : acct'.spd = acct.spd

theorem Continues.refl (acct : AppleAccount) : Continues acct acct := ⟨rfl, rfl⟩

theorem Continues.trans {acct'' : AppleAccount} (h : Continues acct acct')
    (h' : Continues acct' acct'') : Continues acct acct'' :=
  ⟨h'.email.trans h.email, h'.spd.trans h.spd⟩

theorem get_trusted_numbers_continues
    (h : (get_trusted_numbers lib.grandslam acct).run.Runs calls (.ok acct')) :
    Continues acct acct' := by
  unfold get_trusted_numbers at h
  cases hnumbers : acct.trusted_phone_numbers with
  | some numbers =>
      rw [hnumbers] at h
      obtain ⟨-, rfl⟩ := runs_ok h
      exact .refl acct
  | none =>
      rw [hnumbers] at h
      obtain ⟨_, anisette, _, -, -, h⟩ := runs_try h
      obtain ⟨headers, -, h⟩ := runs_lift_bind h
      obtain ⟨_, r, _, -, -, h⟩ := runs_try h
      obtain ⟨numbers, -, h⟩ := runs_lift_bind h
      obtain ⟨-, rfl⟩ := runs_ok h
      exact ⟨rfl, rfl⟩

theorem verify_trusted_device_2fa_continues {code : Str}
    (h : (verify_trusted_device_2fa lib.grandslam acct code).run.Runs calls (.ok acct')) :
    Continues acct acct' := by
  obtain ⟨_, anisette, _, -, -, h⟩ := runs_try h
  obtain ⟨url, -, h⟩ := runs_lift_bind h
  obtain ⟨headers, -, h⟩ := runs_lift_bind h
  obtain ⟨_, r, _, -, -, h⟩ := runs_try h
  obtain ⟨verdict, -, h⟩ := runs_lift_bind h
  cases verdict <;> (obtain ⟨-, rfl⟩ := runs_ok h; exact ⟨rfl, rfl⟩)

theorem send_sms_2fa_continues {id : UInt32}
    (h : (send_sms_2fa lib.grandslam acct id).run.Runs calls (.ok acct')) : Continues acct acct' := by
  obtain ⟨_, anisette, _, -, -, h⟩ := runs_try h
  obtain ⟨headers, -, h⟩ := runs_lift_bind h
  obtain ⟨_, r, _, -, -, h⟩ := runs_try h
  obtain ⟨verdict, -, h⟩ := runs_lift_bind h
  cases verdict <;> (obtain ⟨-, rfl⟩ := runs_ok h; exact ⟨rfl, rfl⟩)

theorem verify_sms_2fa_continues {code : Str} {id : UInt32}
    (h : (verify_sms_2fa lib.grandslam acct code id).run.Runs calls (.ok acct')) :
    Continues acct acct' := by
  obtain ⟨_, anisette, _, -, -, h⟩ := runs_try h
  obtain ⟨headers, -, h⟩ := runs_lift_bind h
  obtain ⟨_, r, _, -, -, h⟩ := runs_try h
  obtain ⟨verdict, -, h⟩ := runs_lift_bind h
  cases verdict <;> (obtain ⟨-, rfl⟩ := runs_ok h; exact ⟨rfl, rfl⟩)

theorem ask_user_continues {unknown : Bool} {selected : Option UInt32}
    {response : GrandSlam.TwoFactorCallbackResponse}
    (h : (ask_user acct unknown selected).run.Runs calls (.ok (acct', response))) :
    Continues acct acct' := by
  obtain ⟨_, answer, _, -, -, h⟩ := runs_try h
  obtain ⟨-, heq⟩ := runs_ok h
  cases heq
  exact ⟨rfl, rfl⟩

theorem choose_number_continues {id : UInt32}
    (h : (choose_number acct id).run.Runs calls (.ok acct')) : Continues acct acct' := by
  obtain ⟨state, -, h⟩ := runs_lift_bind h
  obtain ⟨-, rfl⟩ := runs_ok h
  exact ⟨rfl, rfl⟩

-- A turn proves the password when a sign-in is needed, and otherwise keeps what was proved.
theorem turn_runs (h : (turn lib.grandslam password acct).run.Runs calls (.ok acct')) :
    (login_inner lib.grandslam acct password).run.Runs calls (.ok acct') ∨ Continues acct acct' := by
  unfold turn at h
  cases hstate : acct.login_state with
  | logged_in =>
      rw [hstate] at h
      obtain ⟨-, rfl⟩ := runs_ok h
      exact .inr (.refl acct)
  | needs_device_2fa =>
      rw [hstate] at h
      obtain ⟨_, numbered, _, -, hnumbered, h⟩ := runs_try h
      obtain ⟨_, _, _, -, -, h⟩ := runs_try h
      obtain ⟨-, rfl⟩ := runs_ok h
      have hkept := get_trusted_numbers_continues hnumbered
      exact .inr ⟨hkept.email, hkept.spd⟩
  | needs_device_2fa_verification =>
      rw [hstate] at h
      obtain ⟨_, ⟨asked, response⟩, _, -, hasked, h⟩ := runs_try h
      have hkept := ask_user_continues hasked
      cases response with
      | submit_code code => exact .inr (hkept.trans (verify_trusted_device_2fa_continues (runs_adapt h)))
      | send_sms id => exact .inr (hkept.trans (choose_number_continues h))
      | abort => cases h.2
      | _ =>
          obtain ⟨-, rfl⟩ := runs_ok h
          exact .inr ⟨hkept.email, hkept.spd⟩
  | needs_sms_2fa id =>
      rw [hstate] at h
      obtain ⟨_, numbered, _, -, hnumbered, h⟩ := runs_try h
      exact .inr ((get_trusted_numbers_continues hnumbered).trans (send_sms_2fa_continues (runs_adapt h)))
  | needs_sms_2fa_verification id =>
      rw [hstate] at h
      obtain ⟨_, ⟨asked, response⟩, _, -, hasked, h⟩ := runs_try h
      have hkept := ask_user_continues hasked
      cases response with
      | submit_code code => exact .inr (hkept.trans (verify_sms_2fa_continues (runs_adapt h)))
      | send_sms id => exact .inr (hkept.trans (choose_number_continues h))
      | abort => cases h.2
      | _ =>
          obtain ⟨-, rfl⟩ := runs_ok h
          exact .inr ⟨hkept.email, hkept.spd⟩
  | needs_extra_step s =>
      rw [hstate] at h
      cases hpet : GrandSlam.get_pet acct with
      | error e =>
          rw [hpet] at h
          cases h.2
      | ok pet =>
          rw [hpet] at h
          obtain ⟨-, rfl⟩ := runs_ok h
          exact .inr ⟨rfl, rfl⟩
  | needs_login =>
      rw [hstate] at h
      exact .inl (runs_adapt h)
  | needs_unknown_2fa =>
      rw [hstate] at h
      obtain ⟨_, ⟨asked, response⟩, _, -, hasked, h⟩ := runs_try h
      have hkept := ask_user_continues hasked
      cases response with
      | send_sms id => exact .inr (hkept.trans (choose_number_continues h))
      | send_to_devices =>
          obtain ⟨-, rfl⟩ := runs_ok h
          exact .inr ⟨hkept.email, hkept.spd⟩
      | _ => cases h.2

-- An answer that holds no error is taken as it is.
theorem check_grandslam_error_ok {d d' : Dictionary} (h : check_grandslam_error d = .ok d') :
    d' = d := by
  unfold check_grandslam_error at h
  extract_lets result at h
  split_ifs at h
  exact (Except.ok.inj h).symm

-- What opens was proved by the server.
theorem open_spd_ok {verifier : GrandSlam.ClientVerifier} {response2 spd : Dictionary}
    {state : LoginState} (h : open_spd lib.grandslam verifier response2 = .ok (spd, state)) :
    ∃ m2 encrypted decrypted, get_data response2 "M2" = .ok m2 ∧
      verifier.verify_server m2 = .ok () ∧ get_data response2 "spd" = .ok encrypted ∧
      verifier.decrypt_cbc encrypted = .ok decrypted ∧ lib.grandslam.plist decrypted = some spd := by
  obtain ⟨m2, hm2, h⟩ := bind_eq_ok.mp h
  obtain ⟨_, hverified, h⟩ := bind_eq_ok.mp h
  obtain ⟨encrypted, hencrypted, h⟩ := bind_eq_ok.mp h
  obtain ⟨decrypted, hdecrypted, h⟩ := bind_eq_ok.mp h
  refine ⟨m2, encrypted, decrypted, mapError_eq_ok.mp hm2, mapError_eq_ok.mp hverified,
    mapError_eq_ok.mp hencrypted, mapError_eq_ok.mp hdecrypted, ?_⟩
  cases hplist : lib.grandslam.plist decrypted with
  | none =>
      rw [hplist] at h
      cases h
  | some spd' =>
      rw [hplist] at h
      obtain ⟨status, -, h⟩ := bind_eq_ok.mp h
      cases h
      rfl

theorem plist_request_runs {req : GrandSlam.Request} {response : Dictionary}
    (h : (GrandSlam.plist_request lib.grandslam.plist req).run.Runs calls (.ok response)) :
    ∃ reply, told_by calls (.send req) (.ok reply) ∧
      read_response lib.grandslam.plist reply = .ok response := by
  obtain ⟨first, reply, rest, rfl, hsent, hanswer⟩ := runs_try h
  obtain ⟨r, _, rfl, ⟨rfl, rfl⟩⟩ := runs_adapt hsent
  refine ⟨reply, List.mem_append_left _ List.mem_cons_self, ?_⟩
  cases hread : read_response lib.grandslam.plist reply with
  | error e =>
      rw [hread] at hanswer
      cases hanswer.2
  | ok response' =>
      rw [hread] at hanswer
      cases hanswer.2
      rfl

def Signed (lib : Libs) (email password : Str) (told : Told) (acct : AppleAccount) : Prop :=
  acct.email = email ∧ ∃ spd, acct.spd = some spd ∧ Proved lib email password told spd

theorem Signed.mono {email : Str} {told told' : Told} (h : Signed lib email password told acct)
    (hsub : ∀ c r, c.asks = false → told c r → told' c r) : Signed lib email password told' acct :=
  ⟨h.1, h.2.imp fun _ hspd => ⟨hspd.1, hspd.2.mono hsub⟩⟩

theorem login_inner_signed
    (h : (login_inner lib.grandslam acct password).run.Runs calls (.ok acct')) :
    Signed lib acct.email password (told_by calls) acct' := by
  obtain ⟨t₁, anisette, rest₁, rfl, -, h⟩ := runs_try h
  obtain ⟨url, -, h⟩ := runs_lift_bind h
  obtain ⟨t₂, a, rest₂, rfl, hrandom, h⟩ := runs_try h
  obtain ⟨t₃, response, rest₃, rfl, hbegin, h⟩ := runs_try h
  obtain ⟨response', hcheck, h⟩ := runs_lift_bind h
  obtain ⟨⟨c, verifier⟩, hprove, h⟩ := runs_lift_bind h
  obtain ⟨t₄, response2, rest₄, rfl, hcomplete, h⟩ := runs_try h
  obtain ⟨response2', hcheck2, h⟩ := runs_lift_bind h
  obtain ⟨⟨spd, state⟩, hopen, h⟩ := runs_lift_bind h
  obtain ⟨rfl, rfl⟩ := runs_ok h
  obtain rfl := check_grandslam_error_ok (mapError_eq_ok.mp hcheck)
  obtain rfl := check_grandslam_error_ok (mapError_eq_ok.mp hcheck2)
  obtain ⟨m2, encrypted, decrypted, hopened⟩ := open_spd_ok hopen
  obtain ⟨challenge, hchallenge, hread⟩ := plist_request_runs (runs_adapt hbegin)
  obtain ⟨proof, hproof, hread2⟩ := plist_request_runs (runs_adapt hcomplete)
  obtain ⟨a', _, rfl, -, heq⟩ := hrandom
  cases heq
  refine ⟨rfl, spd, rfl, a, url, anisette.get_client_provided_data, challenge, _, c, verifier, proof,
    _, m2, encrypted, decrypted, ?_, ?_, hread, hprove, ?_, hread2, hopened⟩
  · simp [told_by]
  · simp only [told_by, List.mem_append]
    exact .inr (.inr (.inl hchallenge))
  · simp only [told_by, List.mem_append]
    exact .inr (.inr (.inr (.inl hproof)))

-- Whatever codes are asked for, the account that is signed in is one whose last proof was answered.
theorem login_loop_signed {email : Str} {told : Told} {left : Nat}
    (hsigned : Signed lib email password told acct)
    (h : (login_loop lib.grandslam password left acct).run.Runs calls (.ok acct')) :
    Signed lib email password (fun c r => told c r ∨ told_by calls c r) acct' := by
  induction left generalizing acct told calls with
  | zero => cases h.2
  | succ left ih =>
      rw [login_loop] at h
      by_cases hstate : acct.login_state = .logged_in
      · rw [if_pos hstate] at h
        obtain ⟨-, rfl⟩ := runs_ok h
        exact hsigned.mono fun _ _ _ => .inl
      · rw [if_neg hstate] at h
        obtain ⟨first, turned, last, rfl, hturn, hrest⟩ := runs_try h
        have hnext : Signed lib email password (fun c r => told c r ∨ told_by first c r) turned := by
          cases turn_runs hturn with
          | inl hinner =>
              have hproved := login_inner_signed hinner
              rw [hsigned.1] at hproved
              exact hproved.mono fun _ _ _ => .inr
          | inr hkept =>
              obtain ⟨hemail, spd, hspd, hproved⟩ := hsigned
              exact ⟨hkept.email.trans hemail, spd, hkept.spd.trans hspd,
                hproved.mono fun _ _ _ => .inl⟩
        refine (ih hnext hrest).mono fun c r _ hmem => ?_
        simp only [told_by, List.mem_append] at hmem ⊢
        exact or_assoc.mp hmem

theorem login_signed {email : Str} (h : (login lib.grandslam email password).run.Runs calls (.ok acct)) :
    Signed lib email password (told_by calls) acct := by
  obtain ⟨first, url_bag, rest, rfl, -, h⟩ := runs_try h
  obtain ⟨inner, proved, last, rfl, hinner, hloop⟩ := runs_try h
  refine (login_loop_signed (login_inner_signed (runs_adapt hinner)) hloop).mono fun c r _ hmem => ?_
  simp only [told_by, List.mem_append] at hmem ⊢
  exact .inr hmem

end SignedIn

section Session

variable {lib : Libs} {email password : Str} {told : Told}

theorem get_app_token_granted {acct : AppleAccount} {spd : Dictionary} {token : AppToken}
    {calls : Trace Answer} (hspd : acct.spd = some spd)
    (h : (get_app_token lib acct "xcode.auth".toList).run.Runs calls (.ok token)) :
    Granted lib (told_by calls) spd token := by
  obtain ⟨first, anisette, rest, rfl, -, hrest⟩ := runs_try h
  obtain ⟨⟨request, session_key⟩, hrequest, hrest⟩ := runs_lift_bind hrest
  obtain ⟨asked, response, last, rfl, hasked, hread⟩ := runs_try hrest
  obtain ⟨spd', dsid, auth_token, c, url, hspd', hdsid, htoken, hkey, rfl⟩ :=
    token_request_ok hrequest
  obtain rfl := Option.some.inj (hspd.symm.trans hspd')
  obtain ⟨reply, hreply, hresponse⟩ := plist_request_runs (runs_adapt hasked)
  refine ⟨dsid, auth_token, session_key, url, c, anisette.get_client_provided_data, reply, response,
    hdsid, htoken, hkey, ?_, hresponse, ?_⟩
  · simp only [told_by, List.mem_append]
    exact .inr (.inl hreply)
  · change (liftM (read_token lib XCODE session_key response) : SignIn AppToken).run.Runs last
      (.ok token) at hread
    cases hopened : read_token lib XCODE session_key response with
    | error e =>
        rw [hopened] at hread
        cases hread.2
    | ok opened =>
        rw [hopened] at hread
        cases hread.2
        rfl

theorem from_account_backed {acct : AppleAccount} {sess : DeveloperSession} {calls : Trace Answer}
    (hsigned : Signed lib email password told acct)
    (h : (from_account lib acct).run.Runs calls (.ok sess)) :
    Backed lib email password (fun c r => told c r ∨ told_by calls c r) sess := by
  obtain ⟨-, spd, hspd, hproved⟩ := hsigned
  obtain ⟨first, token, rest, rfl, htoken, hrest⟩ := runs_try h
  rw [hspd] at hrest
  obtain ⟨adsid, hadsid, hrest⟩ := runs_lift_bind hrest
  obtain ⟨rfl, rfl⟩ := runs_ok hrest
  refine ⟨spd, hproved.mono fun _ _ _ => .inl, ?_, hadsid⟩
  refine (get_app_token_granted hspd (runs_adapt htoken)).mono fun c r _ hmem => .inr ?_
  exact List.mem_append_left _ hmem

section Callback

variable {C : Type} {R : C → Type}
  {callback : TwoFactorCallbackParams → Prog R TwoFactorCallbackResponse}
  {trace : Trace (Both Answer R)}

-- A call of the sign-in other than the callback was made as it is.
theorem told_of_carried {calls : Trace Answer} (h : Prog.Carried (carry callback) calls trace)
    {c : Call} {r : Answer c} (hasks : c.asks = false) (hmem : told_by calls c r) :
    told_in trace c r := by
  obtain ⟨before, after, rfl⟩ := List.append_of_mem hmem
  obtain ⟨first, mid, rest, rfl, -, hmid, -⟩ := h.split
  obtain rfl := GrandSlam.runs_carry hasks hmid
  simp [told_in]

-- Whoever gives the codes, a session that is opened is one that its run backs.
theorem session_backed {sess : DeveloperSession}
    (h : (signed_in lib callback email password >>= GrandSlam.finish lib).Runs trace (.ok sess)) :
    Backed lib email password (told_in trace) sess := by
  obtain ⟨first, signed, last, rfl, hsigned, hfinish⟩ := (Prog.runs_bind _ _ _ _).mp h
  cases signed with
  | error e => cases hfinish.2
  | ok acct =>
      obtain ⟨calls, hcalls, hcarried⟩ := (Prog.runs_expand _ _ _).mp hsigned
      obtain ⟨asked, opened, rest, rfl, hasked, hrest⟩ := (Prog.runs_bind _ _ _ _).mp hfinish
      cases opened with
      | error e => cases hrest.2
      | ok sess' =>
          cases hrest.2
          obtain ⟨calls', hcalls', hmem⟩ := runs_outer hasked
          refine (from_account_backed (login_signed hcalls) hcalls').mono fun c r hasks htold => ?_
          have hin : told_in first c r ∨ told_in asked c r :=
            htold.imp (told_of_carried hcarried hasks) (hmem _)
          simp only [told_in, List.mem_append] at hin ⊢
          tauto

end Callback

theorem open_session_backed {callback : TwoFactorCallbackParams → Act TwoFactorCallbackResponse}
    {trace : Trace (Both Answer Resp)} {sess : DeveloperSession}
    (h : (open_session lib callback email password).Runs trace (.ok sess)) :
    Backed lib email password (told_in trace) sess := by
  obtain ⟨prepared, rest, rfl, h⟩ := h
  cases prepared with
  | error e => cases h.2
  | ok _ =>
      change (signed_in lib callback email password >>= GrandSlam.finish lib).Runs rest (.ok sess) at h
      exact (session_backed h).mono fun c r _ hmem => List.mem_cons_of_mem _ hmem

end Session

section Requests

variable {lib : Libs} {sess : DeveloperSession} {url : Str} {body : Dictionary} {calls : Trace Answer}

theorem answered_of_runs {dict : Dictionary} {err : Option Cause}
    (h : (send_dev_request_internal lib sess url body).run.Runs calls (.ok (dict, err))) :
    Answered lib (told_by calls) sess url body dict ∧ err = server_error dict := by
  obtain ⟨first, request_id, rest, rfl, -, h⟩ := runs_try h
  obtain ⟨second, headers, rest, rfl, hheaders, h⟩ := runs_try h
  obtain ⟨anisette, -, hmap⟩ := header_map_of_runs (runs_adapt hheaders)
  obtain ⟨third, reply, rest, rfl, hsend, h⟩ := runs_try h
  obtain ⟨dict', hdict, h⟩ := runs_lift_bind h
  obtain ⟨rfl, hsame⟩ := runs_ok h
  cases hsame
  obtain ⟨r, _, rfl, -, rfl⟩ := hsend
  exact ⟨⟨request_id.map Char.toUpper, anisette, headers, reply, hmap, by simp [told_by], hdict⟩, rfl⟩

-- What a request gives stands in its answer.
theorem send_dev_request_runs {α : Type} {read : GrandSlam.Node → Except Str α} {key : String} {a : α}
    (h : (send_dev_request lib sess read url body key).run.Runs calls (.ok a)) :
    ∃ dict, Answered lib (told_by calls) sess url body dict ∧ get_struct read dict key = .ok a := by
  obtain ⟨asked, ⟨dict, err⟩, last, rfl, hasked, hlast⟩ := runs_try h
  obtain ⟨hanswered, rfl⟩ := answered_of_runs hasked
  refine ⟨dict, hanswered.mono fun _ _ _ => List.mem_append_left _, ?_⟩
  dsimp only [dev_result] at hlast
  cases hstruct : get_struct read dict key with
  | error e =>
      rw [hstruct] at hlast
      cases herr : server_error dict <;> (rw [herr] at hlast; cases hlast.2)
  | ok found =>
      rw [hstruct] at hlast
      cases hlast.2
      rfl

theorem send_dev_request_no_response_runs {dict : Dictionary}
    (h : (send_dev_request_no_response lib sess url body).run.Runs calls (.ok dict)) :
    Answered lib (told_by calls) sess url body dict := by
  obtain ⟨asked, ⟨dict', err⟩, last, rfl, hasked, hlast⟩ := runs_try h
  obtain ⟨hanswered, rfl⟩ := answered_of_runs hasked
  dsimp only at hlast
  cases herr : server_error dict' with
  | some err =>
      rw [herr] at hlast
      cases hlast.2
  | none =>
      rw [herr] at hlast
      obtain ⟨rfl, rfl⟩ := runs_ok hlast
      exact hanswered.mono fun _ _ _ => List.mem_append_left _

variable {C : Type} {R : C → Type} {trace : Trace (Both Answer R)}

-- A program that asks the services is told what they answer.
theorem answered_of_outer {α : Type} {x : SignIn α} {a : α} {made : Dictionary → Prop}
    (hx : ∀ calls, x.run.Runs calls (.ok a) →
      ∃ dict, Answered lib (told_by calls) sess url body dict ∧ made dict)
    (h : (outer x.run : Prog (Both Answer R) _).Runs trace (.ok a)) :
    ∃ dict, Answered lib (told_in trace) sess url body dict ∧ made dict := by
  obtain ⟨calls, hcalls, hmem⟩ := runs_outer h
  obtain ⟨dict, hanswered, hmade⟩ := hx calls hcalls
  exact ⟨dict, hanswered.mono fun c r _ htold => hmem _ htold, hmade⟩

end Requests

section Teams

variable {lib : Libs} {sess : DeveloperSession} {C : Type} {R : C → Type}
  {past : Trace (Both Answer R)} {apple_id password : Str} {teams : List DeveloperTeam}

-- A session that this password opened was shown these teams.
def Lists (lib : Libs) (past : Trace (Both Answer R)) (apple_id password : Str)
    (teams : List DeveloperTeam) : Prop :=
  ∃ sess dict, Backed lib apple_id password (told_in past) sess ∧
    Answered lib (told_in past) sess (dev_url "listTeams" (some .any)) [] dict ∧
    get_struct lib.teams dict "teams" = .ok teams

theorem Lists.mono (h : Lists lib past apple_id password teams) (rest : Trace (Both Answer R)) :
    Lists lib (past ++ rest) apple_id password teams := by
  obtain ⟨sess, dict, hbacked, hanswered, hstruct⟩ := h
  exact ⟨sess, dict, hbacked.mono fun c r _ => told_in_append past rest c r,
    hanswered.mono fun c r _ => told_in_append past rest c r, hstruct⟩

theorem node_of_struct {α : Type} {read : GrandSlam.Node → Except Str α} {dict : Dictionary}
    {key : String} {a : α} (h : get_struct read dict key = .ok a) : ∃ node, read node = .ok a := by
  unfold get_struct at h
  cases hnode : dict.lookup key.toList with
  | none =>
      rw [hnode] at h
      cases h
  | some node =>
      rw [hnode] at h
      exact ⟨node, mapError_eq_ok.mp h⟩

theorem list_teams_runs {calls : Trace Answer}
    (h : (list_teams lib sess).run.Runs calls (.ok teams)) :
    ∃ dict, Answered lib (told_by calls) sess (dev_url "listTeams" (some .any)) [] dict ∧
      get_struct lib.teams dict "teams" = .ok teams :=
  send_dev_request_runs (runs_adapt h)

end Teams

section Page

variable {lib : Libs} {ext : Ext} {sess : DeveloperSession} {past : Trace (Both Answer Resp)}
  {apple_id password : Str} {save : Bool}

-- Without a terminal the first team is picked.
theorem first_team_runs {trace : Trace (Both Answer Resp)} {team : DeveloperTeam}
    (h : (GrandSlam.pick_team lib sess none).Runs trace (.ok team)) :
    ∃ dict teams, Answered lib (told_in trace) sess (dev_url "listTeams" (some .any)) [] dict ∧
      get_struct lib.teams dict "teams" = .ok (team :: teams) := by
  obtain ⟨listing, listed, picking, rfl, hlisting, hpicking⟩ := (Prog.runs_bind _ _ _ _).mp h
  rcases listed with e | _ | ⟨first, teams⟩
  · cases hpicking.2
  · cases hpicking.2
  · obtain ⟨rfl, hsame⟩ := hpicking
    cases hsame
    obtain ⟨dict, hanswered, hstruct⟩ := answered_of_outer (fun _ => list_teams_runs) hlisting
    exact ⟨dict, teams, hanswered.mono fun c r _ => told_in_append listing [] c r, hstruct⟩

def PageSaves (lib : Libs) (apple_id password : Str) (save : Bool) (past : Trace (Both Answer Resp)) :
    Call ⊕ Cmd → Prop
  | .inr (.save_account acc) => ∃ first teams, Lists lib past apple_id password (first :: teams) ∧
      acc = { apple_id, password := if save then password else [], team_id := some first.team_id }
  | _ => True

theorem page_session_uses :
    (open_session lib GrandSlam.page_code apple_id password).Uses fun c =>
      ∀ rest, PageSaves lib apple_id password save (past ++ rest) c := by
  have hcode : ∀ params, (GrandSlam.page_code params).Uses fun c =>
      ∀ rest, PageSaves lib apple_id password save (past ++ rest) (.inr c) := fun params =>
    ⟨fun _ => trivial, fun _ => ⟨fun _ => trivial, fun _ => ⟨fun _ => trivial, fun _ =>
      ⟨fun _ => trivial, fun _ => ⟨fun _ => trivial, fun _ => ⟨fun _ => trivial, fun _ => trivial⟩⟩⟩⟩⟩⟩
  exact GrandSlam.open_session_uses (fun _ => trivial) hcode (fun _ _ _ => trivial) apple_id password

theorem first_team_uses :
    (GrandSlam.pick_team lib sess none).Uses fun c =>
      ∀ rest, PageSaves lib apple_id password save (past ++ rest) c := by
  refine Prog.Uses.bind (Prog.uses_outer (Prog.uses_any _) fun _ _ _ => trivial) ?_
  rintro (e | _ | ⟨first, teams⟩) <;> trivial

theorem after_session_wp (hbacked : Backed lib apple_id password (told_in past) sess) :
    (GrandSlam.after_session lib apple_id password save (.ok sess)).wp
      (Prog.chronicle (PageSaves lib apple_id password save)) (fun _ _ => True) past := by
  refine Prog.chronicle_seq first_team_uses fun picking picked hpicking => ?_
  cases picked with
  | error e => trivial
  | ok team =>
      obtain ⟨dict, teams, hanswered, hstruct⟩ := first_team_runs hpicking
      refine ⟨⟨team, teams, ⟨sess, dict, ?_, ?_, hstruct⟩, rfl⟩, ?_⟩
      · exact hbacked.mono fun c r _ => told_in_append past picking c r
      · exact hanswered.mono fun c r _ hmem => List.mem_append_right _ hmem
      · rintro (e | _) _ - <;> trivial

theorem run_login_wp :
    (GrandSlam.run_login lib ext apple_id password save).wp
      (Prog.chronicle (PageSaves lib apple_id password save)) (fun _ _ => True) [] := by
  refine Prog.chronicle_seq page_session_uses fun opening session hopening => ?_
  have hafter : (GrandSlam.after_session lib apple_id password save session).wp
      (Prog.chronicle (PageSaves lib apple_id password save)) (fun _ _ => True) ([] ++ opening) := by
    cases session with
    | error e => trivial
    | ok sess => exact after_session_wp (open_session_backed hopening)
  exact Prog.wp_seq hafter fun outcome past' _ => ⟨trivial, fun _ _ _ => trivial⟩

-- A sign-in from the page saves an account only when its password was proved, and the session that it
-- opened was shown teams; it holds the first of them, and the password only if it is to be saved.
theorem page_saves {acc : Account} {before after : Trace (Both Answer Resp)}
    {r : Resp (.save_account acc)} {result : Option Unit}
    (h : (GrandSlam.run_login lib ext apple_id password save).Runs
      (before ++ ⟨.inr (.save_account acc), r⟩ :: after) result) :
    ∃ first teams, Lists lib before apple_id password (first :: teams) ∧
      acc = { apple_id, password := if save then password else [], team_id := some first.team_id } :=
  Prog.chronicle_allows run_login_wp h

def page_login : Trace (Both Answer Resp) × Option Unit :=
  (GrandSlam.run_login sample_libs sample "a@b.c".toList "p".toList true).exec
    GrandSlam.sample_outside true

def saves : Call ⊕ Cmd → Bool
  | .inr (.save_account _) => true
  | _ => false

theorem page_saves_sample : ∃ before acc r after result,
    (GrandSlam.run_login sample_libs sample "a@b.c".toList "p".toList true).Runs
      (before ++ ⟨.inr (.save_account acc), r⟩ :: after) result ∧
      ∃ first teams, Lists sample_libs before "a@b.c".toList "p".toList (first :: teams) ∧
        acc = {
          apple_id := "a@b.c".toList
          password := if true then "p".toList else []
          team_id := some first.team_id } := by
  have hsaved : page_login.1.any (fun e => saves e.1) = true := by decide +kernel
  obtain ⟨before, c, r, after, hsaves, hrun⟩ := Prog.exec_event GrandSlam.sample_outside _ _ hsaved
  obtain ⟨acc, rfl⟩ : ∃ acc, c = .inr (.save_account acc) := by
    cases c with
    | inl c => cases hsaves
    | inr c =>
        cases c with
        | save_account acc => exact ⟨acc, rfl⟩
        | _ => cases hsaves
  exact ⟨before, acc, r, after, _, hrun, page_saves hrun⟩

end Page

end AltKeeper.Developer
