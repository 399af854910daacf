import AltKeeper.GrandSlam.Login
import AltKeeper.Start
import AltKeeper.System

-- Apple's developer services: the session with them that a sign-in opens, and what it asks for.
namespace AltKeeper.Developer

open GrandSlam (AnisetteData AppleAccount Cause Dictionary Headers Node Reply Report Request SignIn
  anisette_data check_grandslam_error context get_data get_dict get_signed_integer get_str get_url
  header_value perform plist_request report send)

section Session

structure AppToken where
  token : Str
  duration : UInt64
  expiry : UInt64

structure DeveloperSession where
  token : AppToken
  adsid : Str
  -- the addresses that the client knows
  url_bag : Dictionary

structure AppId where
  app_id_id : Str
  identifier : Str
  name : Str
  expiration_date : Option Int

-- The readers of what the services give, and the cryptography of other libraries.
structure Libs where
  grandslam : GrandSlam.Libs
  hmac : Octets → Octets → Octets
  aes_gcm : Octets → Octets → Octets → Octets → Except Str Octets
  teams : Node → Except Str (List DeveloperTeam)
  app_ids : Dictionary → Except Str (List AppId)
  profile : Node → Except Str Download

variable (lib : Libs)

def decrypt_gcm (data key : Octets) : Except Report Octets :=
  if data.length < 3 + 16 + 16 then
    .error [.text ("Encrypted token is too short to be valid (only ".toList ++
      (toString data.length).toList ++ " bytes)".toList)]
  else
    let header := data.take 3
    if header ≠ Utf8.encode "XYZ".toList then
      .error [.text ("Encrypted token is in an unknown format: ".toList ++ Utf8.lossy header)]
    else
      let iv := (data.drop 3).take 16
      let ciphertext_and_tag := data.drop 19
      if key.length ≠ 32 then
        .error [.text ("Session key is not the correct length: ".toList ++
          (toString key.length).toList ++ " bytes".toList)]
      else (lib.aes_gcm key iv header ciphertext_and_tag).mapError fun e =>
        [.text ("Failed to decrypt gcm: ".toList ++ e)]

def token_name (app : Str) : Str :=
  if app.contains "com.apple.gs.".toList then app else "com.apple.gs.".toList ++ app

-- The request for a token, and the key that opens its answer.
def token_request (acct : AppleAccount) (app : Str) (cpd : Headers) :
    Except Report (Request × Octets) := do
  match acct.spd with
  | none => .error (report "SPD data not available, cannot get app token")
  | some spd =>
      let dsid ← (get_str spd "adsid").mapError (report "Failed to get app token" ++ ·)
      let auth_token ← (get_str spd "GsIdmsToken").mapError (report "Failed to get app token" ++ ·)
      let session_key ← (get_data spd "sk").mapError (report "Failed to get app token" ++ ·)
      let c ← (get_data spd "c").mapError (report "Failed to get app token" ++ ·)
      let checksum := lib.hmac session_key (Utf8.encode ("apptokens".toList ++ dsid ++ app))
      let url ← get_url acct.url_bag "gsService"
      .ok (.app_tokens url app dsid auth_token c checksum cpd, session_key)

def open_token (app : Str) (session_key : Octets) (resp : Dictionary) : Except Report AppToken := do
  let encrypted ← (get_data resp "et").mapError (report "Failed to get encrypted token" ++ ·)
  let decrypted ← (decrypt_gcm lib encrypted session_key).mapError
    (report "Failed to decrypt app token" ++ ·)
  match lib.grandslam.plist decrypted with
  | none => .error (report "Failed to parse decrypted app token plist")
  | some token =>
      let status ← (get_signed_integer token "status-code").mapError
        (report "Failed to get status code from app token" ++ ·)
      if status ≠ 200 then
        .error [.text ("App token request failed with status code ".toList ++ (toString status).toList)]
      else
        let token_dict ← (get_dict token "t").mapError
          (report "Failed to get token dictionary from app token" ++ ·)
        let app_token ← (get_dict token_dict (String.ofList app)).mapError
          (report "Failed to get app token string" ++ ·)
        let text ← (get_str app_token "token").mapError (report "Failed to get app token string" ++ ·)
        let duration ← (get_signed_integer app_token "duration").mapError
          (report "Failed to get app token duration" ++ ·)
        let expiry ← (get_signed_integer app_token "expiry").mapError
          (report "Failed to get app token expiry" ++ ·)
        .ok { token := text, duration := UInt64.ofInt duration, expiry := UInt64.ofInt expiry }

-- What the service answers to the request for a token, opened.
def read_token (app : Str) (session_key : Octets) (resp : Dictionary) : Except Report AppToken := do
  let resp ← (check_grandslam_error resp).mapError
    (report "GrandSlam error during app token request" ++ ·)
  open_token lib app session_key resp

def get_app_token (acct : AppleAccount) (app : Str) : SignIn AppToken := do
  let app := token_name app
  let anisette ← anisette_data acct.url_bag "Failed to get anisette data for login"
  let (request, session_key) ← token_request lib acct app anisette.get_client_provided_data
  let resp ← context "Failed to send app token request" (plist_request lib.grandslam.plist request)
  read_token lib app session_key resp

def from_account (acct : AppleAccount) : SignIn DeveloperSession := do
  let token ← context "Failed to get xcode token from Apple account"
    (get_app_token lib acct "xcode.auth".toList)
  match acct.spd with
  | none => throw (report "SPD not available, cannot get adsid")
  | some spd =>
      let adsid ← get_str spd "adsid"
      return { token, adsid, url_bag := acct.url_bag }

end Session

section Requests

def GS_TOKEN : Str := "X-Apple-GS-Token".toList

def IDENTITY_ID : Str := "X-Apple-I-Identity-Id".toList

def DeveloperSession.header_map (sess : DeveloperSession) (anisette : AnisetteData) :
    Except Report Headers := do
  let headers ← anisette.get_header_map
  let token ← header_value sess.token.token
  let adsid ← header_value sess.adsid
  .ok (headers ++ [(GS_TOKEN, token), (IDENTITY_ID, adsid)])

def DeveloperSession.get_headers (sess : DeveloperSession) : SignIn Headers := do
  let anisette ← ExceptT.mk (perform (.get_anisette_data sess.url_bag))
  sess.header_map anisette

inductive DeveloperDeviceType where
  | any
  | ios
  | tvos
  | watchos

def DeveloperDeviceType.url_segment : DeveloperDeviceType → Str
  | .any => []
  | .ios => "ios/".toList
  | .tvos => "tvos/".toList
  | .watchos => "watchos/".toList

def dev_url (endpoint : String) (device_type : Option DeveloperDeviceType) : Str :=
  "https://developerservices2.apple.com/services/QH65B2/".toList ++
    (device_type.getD .ios).url_segment ++ endpoint.toList ++
    ".action?clientId=XABBG36SBA".toList

-- A key that is there already keeps its place.
def insert (d : Dictionary) (e : Str × Node) : Dictionary :=
  if d.any (·.1 = e.1) then d.map fun f => if f.1 = e.1 then e else f else d ++ [e]

def base (request_id : Str) : Dictionary := [
  ("clientId".toList, .string "XABBG36SBA".toList),
  ("protocolVersion".toList, .string "QH65B2".toList),
  ("requestId".toList, .string request_id),
  ("userLocale".toList, .array [.string "en_US".toList])]

def dev_body (request_id : Str) (body : Dictionary) : Dictionary := body.foldl insert (base request_id)

-- The error that the services give, beside whatever else they give.
def server_error (dict : Dictionary) : Option Cause :=
  match (dict.lookup "resultCode".toList).bind Node.as_signed_integer with
  | none => none
  | some code =>
      if code ≠ 0 then
        let result_string := ((dict.lookup "resultString".toList).bind Node.as_string).getD
          "No error message given.".toList
        let user_string := ((dict.lookup "userString".toList).bind Node.as_string).getD result_string
        some (.developer code user_string)
      else none

variable (lib : Libs)

def read_dev_response (r : Reply) : Except Report Dictionary := do
  let r ← (r.error_for_status).mapError (report "Developer request failed" ++ ·)
  let text ← r.text.mapError (report "Failed to read developer request response text" ++ ·)
  match lib.grandslam.plist (Utf8.encode text) with
  | none => .error (report "Failed to parse developer request plist")
  | some dict => .ok dict

variable (sess : DeveloperSession)

def send_dev_request_internal (url : Str) (body : Dictionary) :
    SignIn (Dictionary × Option Cause) := do
  let request_id ← ExceptT.lift (perform .new_v4)
  let body := dev_body (request_id.map Char.toUpper) body
  let headers ← context "Failed to get anisette headers" sess.get_headers
  let r ← send (.developer url body headers)
  let dict ← read_dev_response lib r
  return (dict, server_error dict)

variable {α : Type}

def get_struct (read : Node → Except Str α) (dict : Dictionary) (key : String) : Except Report α :=
  match dict.lookup key.toList with
  | none => .error (report ("Plist missing dictionary for key '" ++ key ++ "'"))
  | some v => (read v).mapError fun e =>
      [.text (("Failed to deserialize plist struct for key '" ++ key ++ "': ").toList ++ e)]

-- What was asked for, whatever error came with it; else that error, else what is wrong with the data.
def dev_result (read : Node → Except Str α) (key : String) (dict : Dictionary)
    (server_error : Option Cause) : Except Report α :=
  match get_struct read dict key, server_error with
  | .ok a, _ => .ok a
  | .error _, some err => .error [err]
  | .error e, none => .error (report "Failed to extract developer request result" ++ e)

def send_dev_request (read : Node → Except Str α) (url : Str) (body : Dictionary) (response_key : String) :
    SignIn α := do
  let (dict, server_error) ← send_dev_request_internal lib sess url body
  dev_result read response_key dict server_error

def send_dev_request_no_response (url : Str) (body : Dictionary) : SignIn Dictionary := do
  let (dict, server_error) ← send_dev_request_internal lib sess url body
  match server_error with
  | some err => throw [err]
  | none => return dict

def list_teams : SignIn (List DeveloperTeam) :=
  context "Failed to list developer teams"
    (send_dev_request lib sess lib.teams (dev_url "listTeams" (some .any)) [] "teams")

def team_body (team_id : Str) : Dictionary := [("teamId".toList, .string team_id)]

def list_app_ids (team : DeveloperTeam) (device_type : Option DeveloperDeviceType) :
    SignIn (List AppId) := do
  let response ← context "Failed to list developer app IDs"
    (send_dev_request_no_response lib sess (dev_url "listAppIds" device_type) (team_body team.team_id))
  (lib.app_ids response).mapError fun e =>
    [Cause.text ("Failed to deserialize app id response: ".toList ++ e)]

def app_body (team_id app_id_id : Str) : Dictionary :=
  team_body team_id ++ [("appIdId".toList, .string app_id_id)]

def download_team_provisioning_profile (team : DeveloperTeam) (app : AppId)
    (device_type : Option DeveloperDeviceType) : SignIn Download :=
  context "Failed to download provisioning profile"
    (send_dev_request lib sess lib.profile (dev_url "downloadTeamProvisioningProfile" device_type)
      (app_body team.team_id app.app_id_id) "provisioningProfile")

end Requests

section Uses

open Prog (runs_adapt runs_try uses_adapt uses_lift_bind uses_lift_ok uses_try uses_try_runs)

variable {lib : Libs} {acct : AppleAccount} {app : Str} {cpd : Headers}

-- What the request for a token is made of.
theorem token_request_ok {request : Request} {session_key : Octets}
    (h : token_request lib acct app cpd = .ok (request, session_key)) :
    ∃ spd dsid auth_token c url, acct.spd = some spd ∧ get_str spd "adsid" = .ok dsid ∧
      get_str spd "GsIdmsToken" = .ok auth_token ∧ get_data spd "sk" = .ok session_key ∧
      request = .app_tokens url app dsid auth_token c
        (lib.hmac session_key (Utf8.encode ("apptokens".toList ++ dsid ++ app))) cpd := by
  unfold token_request at h
  cases hspd : acct.spd with
  | none =>
      rw [hspd] at h
      cases h
  | some spd =>
      rw [hspd] at h
      obtain ⟨dsid, hdsid, h⟩ := bind_eq_ok.mp h
      obtain ⟨auth_token, htoken, h⟩ := bind_eq_ok.mp h
      obtain ⟨key, hkey, h⟩ := bind_eq_ok.mp h
      obtain ⟨c, -, h⟩ := bind_eq_ok.mp h
      obtain ⟨url, -, h⟩ := bind_eq_ok.mp h
      cases h
      exact ⟨spd, dsid, auth_token, c, url, rfl, mapError_eq_ok.mp hdsid, mapError_eq_ok.mp htoken,
        mapError_eq_ok.mp hkey, rfl⟩

theorem header_map_of_runs {sess : DeveloperSession} {trace : Prog.Trace GrandSlam.Answer}
    {headers : Headers} (h : sess.get_headers.run.Runs trace (.ok headers)) :
    ∃ anisette, ⟨.get_anisette_data sess.url_bag, .ok anisette⟩ ∈ trace ∧
      sess.header_map anisette = .ok headers := by
  obtain ⟨first, anisette, rest, rfl, hfirst, hrest⟩ := runs_try h
  obtain ⟨r, _, rfl, -, rfl⟩ := hfirst
  cases hmap : sess.header_map anisette with
  | error e =>
      rw [hmap] at hrest
      cases hrest.2
  | ok made =>
      rw [hmap] at hrest
      cases hrest.2
      exact ⟨anisette, List.mem_append_left _ List.mem_cons_self, hmap⟩

variable {Q : GrandSlam.Call → Prop} (hdata : ∀ gs, Q (.get_anisette_data gs))

include hdata

theorem from_account_uses
    (htoken : ∀ url app u t c checksum cpd, Q (.send (.app_tokens url app u t c checksum cpd))) :
    (from_account lib acct).run.Uses Q := by
  refine uses_try (uses_adapt ?_) fun token => ?_
  · refine uses_try (uses_adapt ⟨hdata _, fun _ => trivial⟩) fun anisette => uses_lift_ok ?_
    rintro ⟨request, session_key⟩ hrequest
    have hsend : (send request).run.Uses Q := by
      obtain ⟨_, dsid, auth_token, c, url, -, -, -, -, rfl⟩ := token_request_ok hrequest
      exact ⟨htoken _ _ _ _ _ _ _, fun _ => trivial⟩
    refine uses_try (uses_adapt (uses_try (uses_adapt hsend) fun r => ?_)) fun resp => ?_
    · cases h : GrandSlam.read_response lib.grandslam.plist r <;> trivial
    · cases h : read_token lib (token_name "xcode.auth".toList) session_key resp <;> trivial
  · split
    · trivial
    · exact uses_lift_bind fun _ => trivial

variable {sess : DeveloperSession} {url : Str} {body : Dictionary} (hid : Q .new_v4)
  (hsend : ∀ request_id anisette headers, sess.header_map anisette = .ok headers →
    Q (.send (.developer url (dev_body request_id body) headers)))

include hid hsend

theorem send_dev_request_internal_uses :
    (send_dev_request_internal lib sess url body).run.Uses Q := by
  refine uses_try (x := ExceptT.lift (perform .new_v4)) ⟨hid, fun _ => trivial⟩ fun request_id => ?_
  refine uses_try_runs (uses_adapt ?_) fun trace headers hheaders => ?_
  · refine uses_try (x := ExceptT.mk (perform (.get_anisette_data sess.url_bag)))
      ⟨hdata _, fun _ => trivial⟩ fun anisette => ?_
    cases h : sess.header_map anisette <;> trivial
  · obtain ⟨anisette, -, hmap⟩ := header_map_of_runs (runs_adapt hheaders)
    exact uses_try ⟨hsend _ _ _ hmap, fun _ => trivial⟩ fun r => uses_lift_bind fun _ => trivial

theorem send_dev_request_uses {α : Type} {read : Node → Except Str α} {key : String} :
    (send_dev_request lib sess read url body key).run.Uses Q := by
  refine uses_try (send_dev_request_internal_uses hdata hid hsend) fun r => ?_
  cases h : dev_result read key r.1 r.2 <;> trivial

theorem send_dev_request_no_response_uses :
    (send_dev_request_no_response lib sess url body).run.Uses Q := by
  refine uses_try (send_dev_request_internal_uses hdata hid hsend) ?_
  rintro ⟨dict, _ | err⟩ <;> trivial

end Uses

section Sample

-- The services give team T, an App ID for com.a and a profile for it.
def sample_libs : Libs where
  grandslam := GrandSlam.sample_libs
  hmac _ data := data
  aes_gcm _ _ _ data := .ok data
  teams _ := .ok [{ team_id := "T".toList, name := none }]
  app_ids _ := .ok [{ app_id_id := "I".toList, identifier := "com.a".toList, name := [], expiration_date := none }]
  profile _ := .ok { encoded_profile := renewed_profile, date_expire := 604800000000000 }

end Sample

end AltKeeper.Developer
