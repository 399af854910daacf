import AltKeeper.GrandSlam

-- The sign-in to an Apple ID: the proof of the password, and the codes that Apple asks for.
namespace AltKeeper.GrandSlam

inductive LoginState where
  | logged_in
  | needs_device_2fa
  | needs_device_2fa_verification
  | needs_sms_2fa (id : UInt32)
  | needs_sms_2fa_verification (id : UInt32)
  | needs_unknown_2fa
  | needs_extra_step (s : Str)
  | needs_login
  deriving DecidableEq

structure AppleAccount where
  email : Str
  spd : Option Dictionary := none
  url_bag : Dictionary
  trusted_phone_numbers : Option (List TrustedNumber) := none
  login_state : LoginState := .needs_login
  last_error : Option Str := none

-- The client's side of the SRP exchange, once the server has answered.
structure ClientVerifier where
  proof : Octets
  verify_server : Octets → Except Str Unit
  -- decrypts with keys that the exchange gave
  decrypt_cbc : Octets → Except Report Octets

-- The readers and the cryptography of other libraries.
structure Libs where
  plist : Octets → Option Dictionary
  json : Str → Option Value
  numbers : Value → Option (List TrustedNumber)
  sha256 : Octets → Octets
  pbkdf2 : Octets → Octets → UInt32 → Octets
  compute_public_ephemeral : Octets → Octets
  process_reply : Octets → Octets → Octets → Octets → Octets → Except Str ClientVerifier
  debug : LoginState → Str
  display : Report → Str

section Parts

-- Whether Apple's own token came with the sign-in.
def get_pet (acct : AppleAccount) : Except Report Str := do
  match acct.spd with
  | none => .error (report "SPD not available, cannot get pet")
  | some spd =>
      let t ← get_dict spd "t"
      let pet ← get_dict t "com.apple.gs.idms.pet"
      get_str pet "token"

def select_number (acct : AppleAccount) (selected_number_id : UInt32) : Except Report LoginState :=
  match (acct.trusted_phone_numbers.getD []).find? (·.id = selected_number_id) with
  | some number => .ok (.needs_sms_2fa number.id)
  | none => .error (report "Selected trusted number ID not found in trusted numbers")

def build_2fa_headers (acct : AppleAccount) (anisette : AnisetteData) : Except Report Headers := do
  let headers ← anisette.get_header_map
  match acct.spd with
  | none => .error (report "SPD data not available, cannot build 2FA headers")
  | some spd =>
      let adsid ← (get_str spd "adsid").mapError (report "Failed to build 2FA headers" ++ ·)
      let token ← (get_str spd "GsIdmsToken").mapError (report "Failed to build 2FA headers" ++ ·)
      let identity ← header_value (Base64.encode (Utf8.encode (adsid ++ ":".toList ++ token)))
      let rinfo ← header_value anisette.routing_info
      .ok (headers ++ [("X-Apple-Identity-Token".toList, identity),
        ("X-Apple-I-MD-RINFO".toList, rinfo)])

-- `value.get(key)`, which tells a null from nothing.
def field (v : Value) (key : String) : Option Value :=
  match v with
  | .object fields => fields.lookup key.toList
  | _ => none

structure SMSTwoFactorError where
  code : Str
  title : Str
  message : Str

def text_or (v : Value) (key default : String) : Str := (v.get key).as_str.getD default.toList

variable (lib : Libs)

def parse_sms_error (text : Str) (status : UInt16) : Except Report SMSTwoFactorError :=
  match (lib.json text).bind fun json => ((json.get "serviceErrors").as_array).bind List.head? with
  | some first_error => .ok {
      code := text_or first_error "code" "unknown"
      title := text_or first_error "title" "No title provided"
      message := text_or first_error "message" "No message provided" }
  | none => .error [.text ("SMS 2FA code submission failed with http status ".toList ++
      (toString status).toList ++ ": ".toList ++ text)]

def SMSTwoFactorError.refusal (e : SMSTwoFactorError) : Str := e.title ++ " - ".toList ++ e.message

-- What Apple says to a code, or to the wish for one: it is taken, or refused with a message that
-- the user is shown.
inductive Verdict where
  | accepted
  | refused (message : Str)

-- An incorrect verification code, which the user may try again.
def WRONG_CODE : Int := -21669

def Cause.wrong_code : Cause → Option Str
  | .auth code message => if code = WRONG_CODE then some message else none
  | _ => none

def read_device_verdict (r : Reply) : Except Report Verdict := do
  let r ← (r.error_for_status).mapError (report "Trusted device 2FA code submission failed" ++ ·)
  let res ← r.text.mapError (report "Failed to read trusted device 2FA response text" ++ ·)
  match lib.plist (Utf8.encode res) with
  | none => .error (report "Failed to parse trusted device response plist")
  | some plist =>
      match check_grandslam_error plist with
      | .ok _ => .ok .accepted
      | .error causes =>
          match causes.findSome? Cause.wrong_code with
          | some message => .ok (.refused ("-21669 - ".toList ++ message))
          | none => .error (report "Trusted device 2FA rejected" ++ causes)

def read_sms_verdict (r : Reply) : Except Report Verdict := do
  let text ← r.text.mapError (report "Failed to read SMS 2FA error response text" ++ ·)
  if r.is_success then .ok .accepted
  else
    let error ← parse_sms_error lib text r.status
    if error.code = "-21669".toList then .ok (.refused error.refusal)
    else .error [.text ("SMS 2FA code submission failed (code ".toList ++ error.code ++ "): ".toList ++
      error.refusal)]

-- The codes of the refusals after which another way has to be chosen.
def NO_MORE_SMS : List Str := ["-28248".toList, "-22979".toList, "-22981".toList]

def read_sms_sent (r : Reply) : Except Report Verdict := do
  if r.is_success then .ok .accepted
  else
    let text ← r.text.mapError (report "Failed to read SMS 2FA error response text" ++ ·)
    let error ← parse_sms_error lib text r.status
    if NO_MORE_SMS.contains error.code then .ok (.refused error.refusal)
    else .error [.text ("SMS 2FA request failed (code ".toList ++ error.code ++ "): ".toList ++
      error.refusal)]

def read_trusted_numbers (r : Reply) : Except Report (List TrustedNumber) := do
  let text ← r.text.mapError (report "Failed to read SMS 2FA error response text" ++ ·)
  match (lib.json text).bind fun json => field json "trustedPhoneNumbers" with
  | none => .error [.text ("Failed to retrieve trusted phone numbers (status ".toList ++
      (toString r.status).toList ++ "): ".toList ++ text)]
  | some numbers =>
      match lib.numbers numbers with
      | none => .error (report "Failed to parse trusted phone numbers")
      | some numbers => .ok numbers

-- What the sign-in still needs, as the answer's status says; without one it is over.
def after_proof (status : Dictionary) : LoginState :=
  match status.lookup "au".toList with
  | some (.string s) =>
      if s = "trustedDeviceSecondaryAuth".toList then .needs_device_2fa
      else if s = "secondaryAuth".toList then .needs_sms_2fa 1
      else if s = "repair".toList then .logged_in
      else .needs_extra_step s
  | _ => .logged_in

def password_hash (selected_protocol password : Str) : Octets :=
  let hashed := lib.sha256 (Utf8.encode password)
  if selected_protocol = "s2k_fo".toList then Utf8.encode (hashed.flatMap AltServer.hex_byte)
  else hashed

end Parts

section Requests

variable (lib : Libs)

def FOR_2FA : String := "Failed to get anisette data for 2FA"

def send_trusted_device_2fa (acct : AppleAccount) : SignIn Unit := do
  let anisette ← anisette_data acct.url_bag FOR_2FA
  let url ← get_url acct.url_bag "trustedDeviceSecondaryAuth"
  let headers ← build_2fa_headers acct anisette
  let r ← context "Failed to request trusted device 2fa" (send (.send_device_code url headers))
  let _ ← (r.error_for_status).mapError (report "Trusted device 2FA request failed" ++ ·)

def verify_trusted_device_2fa (acct : AppleAccount) (code : Str) : SignIn AppleAccount := do
  let anisette ← anisette_data acct.url_bag FOR_2FA
  let url ← get_url acct.url_bag "validateCode"
  let headers ← build_2fa_headers acct anisette
  let r ← context "Failed to submit trusted device 2fa code" (send (.validate_code url headers code))
  match ← read_device_verdict lib r with
  | .accepted => return { acct with login_state := .needs_login }
  | .refused message => return { acct with
      login_state := .needs_device_2fa_verification, last_error := some message }

def send_sms_2fa (acct : AppleAccount) (id : UInt32) : SignIn AppleAccount := do
  let anisette ← anisette_data acct.url_bag FOR_2FA
  let headers ← build_2fa_headers acct anisette
  let r ← context "Failed to request SMS 2FA" (send (.put_phone headers id))
  match ← read_sms_sent lib r with
  | .accepted => return { acct with login_state := .needs_sms_2fa_verification id }
  | .refused message => return { acct with
      login_state := .needs_unknown_2fa, last_error := some message }

def verify_sms_2fa (acct : AppleAccount) (code : Str) (id : UInt32) : SignIn AppleAccount := do
  let anisette ← anisette_data acct.url_bag FOR_2FA
  let headers ← build_2fa_headers acct anisette
  let r ← context "Failed to submit SMS 2FA code" (send (.post_code headers code id))
  match ← read_sms_verdict lib r with
  | .accepted => return { acct with login_state := .needs_login }
  | .refused message => return { acct with
      login_state := .needs_sms_2fa_verification id, last_error := some message }

-- The numbers are asked for once.
def get_trusted_numbers (acct : AppleAccount) : SignIn AppleAccount := do
  match acct.trusted_phone_numbers with
  | some _ => return acct
  | none =>
      let anisette ← anisette_data acct.url_bag FOR_2FA
      let headers ← build_2fa_headers acct anisette
      let r ← send (.trusted_numbers headers)
      let numbers ← read_trusted_numbers lib r
      return { acct with trusted_phone_numbers := some numbers }

end Requests

section Proof

variable (lib : Libs)

-- The client's proof for the server's challenge.
def prove (a : Octets) (email password : Str) (response : Dictionary) :
    Except Report (Str × ClientVerifier) := do
  let parsed {α : Type} (x : Except Report α) : Except Report α :=
    x.mapError (report "Failed to parse initial login response" ++ ·)
  let salt ← parsed (get_data response "s")
  let b_pub ← parsed (get_data response "B")
  let iters ← parsed (get_signed_integer response "i")
  let c ← parsed (get_str response "c")
  let selected_protocol ← parsed (get_str response "sp")
  if selected_protocol ≠ "s2k".toList ∧ selected_protocol ≠ "s2k_fo".toList then
    .error [.text ("Unsupported SRP protocol selected: ".toList ++ selected_protocol)]
  else
    let password_buf := lib.pbkdf2 (password_hash lib selected_protocol password) salt (UInt32.ofInt iters)
    let verifier ← (lib.process_reply a (Utf8.encode email) password_buf salt b_pub).mapError
      fun e => report "Failed to compute SRP proof" ++ [.text e]
    .ok (c, verifier)

-- What the server's own proof opens, and what the sign-in still needs.
def open_spd (verifier : ClientVerifier) (response2 : Dictionary) :
    Except Report (Dictionary × LoginState) := do
  let m2 ← (get_data response2 "M2").mapError (report "Failed to parse proof login response" ++ ·)
  (verifier.verify_server m2).mapError fun e =>
    [.text ("Negotiation failed, server proof mismatch: ".toList ++ e)]
  let spd_encrypted ← (get_data response2 "spd").mapError
    (report "Failed to get SPD from login response" ++ ·)
  let spd_decrypted ← (verifier.decrypt_cbc spd_encrypted).mapError
    (report "Failed to decrypt SPD from login response" ++ ·)
  match lib.plist spd_decrypted with
  | none => .error (report "Failed to parse decrypted SPD plist")
  | some spd =>
      let status ← (get_dict response2 "Status").mapError
        (report "Failed to parse proof login response" ++ ·)
      .ok (spd, after_proof status)

def login_inner (acct : AppleAccount) (password : Str) : SignIn AppleAccount := do
  let anisette ← anisette_data acct.url_bag "Failed to get anisette data for login"
  let url ← get_url acct.url_bag "gsService"
  let cpd := anisette.get_client_provided_data
  let a ← ExceptT.lift (perform .random)
  let response ← context "Failed to send initial login request" (plist_request lib.plist
    (.begin_proof url acct.email (lib.compute_public_ephemeral a) cpd))
  let response ← (check_grandslam_error response).mapError
    (report "GrandSlam error during initial login request" ++ ·)
  let (c, verifier) ← prove lib a acct.email password response
  let response2 ← context "Failed to send proof login request" (plist_request lib.plist
    (.complete url acct.email verifier.proof c cpd))
  let response2 ← (check_grandslam_error response2).mapError
    (report "GrandSlam error during proof login request" ++ ·)
  let (spd, login_state) ← open_spd lib verifier response2
  return { acct with spd := some spd, login_state }

end Proof

section Login

variable (lib : Libs)

-- The user is asked, and the last error has then been shown.
def ask_user (acct : AppleAccount) (unknown : Bool) (selected_number_id : Option UInt32) :
    SignIn (AppleAccount × TwoFactorCallbackResponse) := do
  let response ← ExceptT.mk (perform (.two_factor_callback {
    last_error := acct.last_error
    unknown
    sms := selected_number_id.isSome
    numbers := acct.trusted_phone_numbers.getD []
    selected_number_id }))
  return ({ acct with last_error := none }, response)

def choose_number (acct : AppleAccount) (id : UInt32) : SignIn AppleAccount := do
  let login_state ← select_number acct id
  return { acct with login_state }

-- One turn of the loop.
def turn (password : Str) (acct : AppleAccount) : SignIn AppleAccount := do
  match acct.login_state with
  | .logged_in => return acct
  | .needs_device_2fa =>
      let acct ← get_trusted_numbers lib acct
      context "Failed to complete trusted device 2FA" (send_trusted_device_2fa acct)
      return { acct with login_state := .needs_device_2fa_verification }
  | .needs_device_2fa_verification =>
      let (acct, response) ← ask_user acct false none
      match response with
      | .submit_code code =>
          context "Failed to verify trusted device 2FA" (verify_trusted_device_2fa lib acct code)
      | .send_sms id => choose_number acct id
      | .send_to_devices => return { acct with login_state := .needs_device_2fa }
      | .resend_code => return { acct with login_state := .needs_device_2fa }
      | .abort => throw (report "No 2FA code provided, aborting")
  | .needs_sms_2fa id =>
      let acct ← get_trusted_numbers lib acct
      context "Failed to complete SMS 2FA" (send_sms_2fa lib acct id)
  | .needs_sms_2fa_verification id =>
      let (acct, response) ← ask_user acct false (some id)
      match response with
      | .submit_code code =>
          context "Failed to verify trusted device 2FA" (verify_sms_2fa lib acct code id)
      | .send_sms id => choose_number acct id
      | .resend_code => return { acct with login_state := .needs_sms_2fa id }
      | .send_to_devices => return { acct with login_state := .needs_device_2fa }
      | .abort => throw (report "No 2FA code provided, aborting")
  | .needs_extra_step s =>
      match get_pet acct with
      | .error _ => throw [.text ("Additional authentication required: ".toList ++ s)]
      | .ok _ => return { acct with login_state := .logged_in }
  | .needs_login => context "Failed to login again" (login_inner lib acct password)
  | .needs_unknown_2fa =>
      let (acct, response) ← ask_user acct true none
      match response with
      | .submit_code _ => throw (report "Cannot submit code without knowing which method to use")
      | .send_sms id => choose_number acct id
      | .send_to_devices => return { acct with login_state := .needs_device_2fa }
      | .resend_code => throw (report "Cannot resend code without knowing which method to use")
      | .abort => throw (report "No 2FA method selected, aborting")

def MAX_ATTEMPTS : Nat := 15

-- The turns that are left.
def login_loop (password : Str) : Nat → AppleAccount → SignIn AppleAccount
  | 0, acct => throw [.text ("Couldn't login after 15 attempts, aborting (current state: ".toList ++
      lib.debug acct.login_state ++ ")".toList)]
  | left + 1, acct => do
      if acct.login_state = .logged_in then return acct
      login_loop password left (← turn lib password acct)

def login_impl (acct : AppleAccount) (password : Str) : SignIn AppleAccount := do
  let acct ← context "Failed to log in to Apple ID" (login_inner lib acct password)
  login_loop lib password MAX_ATTEMPTS acct

-- An account is built and signed in.
def login (email password : Str) : SignIn AppleAccount := do
  let url_bag ← fetch_url_bag lib.plist
  login_impl lib { email, url_bag } password

end Login

section Sample

-- A sign-in in which the first code is wrong, and the second one comes to a number.
def sample_nodes : List (Octets × Dictionary) :=
  let text (s : String) : Node := .string s.toList
  let dict (fields : List (String × Node)) : Dictionary := fields.map fun f => (f.1.toList, f.2)
  let opened (status : Dictionary) : Dictionary := dict [("Response", .dictionary (dict
    [("M2", .data []), ("spd", .data [0]), ("Status", .dictionary status)]))]
  [(Utf8.encode "urls".toList, dict [("urls", .dictionary (dict [("gsService", text "g"),
      ("trustedDeviceSecondaryAuth", text "t"), ("validateCode", text "v")]))]),
    (Utf8.encode "challenge".toList, dict [("Response", .dictionary (dict [("s", .data []),
      ("B", .data []), ("i", .integer 1), ("c", text "c"), ("sp", text "s2k")]))]),
    (Utf8.encode "device".toList, opened (dict [("au", text "trustedDeviceSecondaryAuth")])),
    (Utf8.encode "done".toList, opened []),
    (Utf8.encode "wrong".toList, dict [("ec", .integer (-21669)), ("em", text "Incorrect code.")]),
    ([0], dict [("adsid", text "a"), ("GsIdmsToken", text "t"), ("sk", .data (List.replicate 32 0)),
      ("c", .data [])]),
    (Utf8.encode "token".toList, dict [("Response", .dictionary (dict [("et", .data
      (Utf8.encode "XYZ".toList ++ List.replicate 32 1))]))]),
    (List.replicate 16 1, dict [("status-code", .integer 200), ("t", .dictionary (dict
      [("com.apple.gs.xcode.auth", .dictionary (dict [("token", text "k"), ("duration", .integer 1),
        ("expiry", .integer 1)]))]))]),
    (Utf8.encode "services".toList, dict [("resultCode", .integer 0), ("teams", .other),
      ("provisioningProfile", .other)])]

def sample_number : TrustedNumber :=
  { number_with_dial_code := "+39".toList, last_two_digits := "39".toList, push_mode := [], id := 7 }

def sample_libs : Libs where
  plist bytes := sample_nodes.lookup bytes
  json text := if text = "numbers".toList then
      some (.object [("trustedPhoneNumbers".toList, .null)]) else none
  numbers _ := some [sample_number]
  sha256 bytes := bytes
  pbkdf2 bytes _ _ := bytes
  compute_public_ephemeral bytes := bytes
  process_reply _ _ _ _ _ := .ok
    { proof := [], verify_server := fun _ => .ok (), decrypt_cbc := fun bytes => .ok bytes }
  debug _ := []
  display _ := []

-- `accepted` tells whether a code was accepted.
def sample_answer (accepted : Bool) : (c : Call) → Answer c × Bool
  | .two_factor_callback params =>
      (.ok (if params.sms then .submit_code "222222".toList
        else if params.last_error.isSome then .send_sms 7 else .submit_code "111111".toList), accepted)
  | .get_anisette_data _ => (.ok ⟨[], [], [], [], [], [], 0⟩, accepted)
  | .random => ([], accepted)
  | .new_v4 => ([], accepted)
  | .send req =>
      let reply (s : String) : Except Report Reply := .ok ⟨200, .ok s.toList⟩
      match req with
      | .url_bag => (reply "urls", accepted)
      | .begin_proof _ _ _ _ => (reply "challenge", accepted)
      | .complete _ _ _ _ _ => (if accepted then reply "done" else reply "device", accepted)
      | .send_device_code _ _ => (reply "", accepted)
      | .validate_code _ _ _ => (reply "wrong", accepted)
      | .trusted_numbers _ => (reply "numbers", accepted)
      | .put_phone _ _ => (reply "", accepted)
      | .post_code _ _ _ => (reply "", true)
      | .app_tokens _ _ _ _ _ _ _ => (reply "token", accepted)
      | .developer _ _ _ => (reply "services", accepted)

def sample_login : Prog.Trace Answer × Except Report AppleAccount :=
  (login sample_libs "a@b.c".toList "p".toList).run.exec sample_answer false

theorem sample_login_runs :
    (login sample_libs "a@b.c".toList "p".toList).run.Runs sample_login.1 sample_login.2 :=
  Prog.runs_exec _ _ _

end Sample

end AltKeeper.GrandSlam
