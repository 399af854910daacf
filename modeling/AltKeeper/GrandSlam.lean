import AltKeeper.Identity
import AltKeeper.Json
import AltKeeper.Lib.Base64
import AltKeeper.Lib.Interpret

-- What is asked of Apple's sign-in service, and how its answers are read.
namespace AltKeeper.GrandSlam

section Answers

-- What the plist library reads of an answer.
inductive Node where
  | dictionary (entries : List (Str × Node))
  | string (s : Str)
  | data (bytes : Octets)
  | integer (n : Int)
  | array (items : List Node)
  | other

abbrev Dictionary := List (Str × Node)

namespace Node

def as_dictionary : Node → Option Dictionary
  | .dictionary entries => some entries
  | _ => none

def as_string : Node → Option Str
  | .string s => some s
  | _ => none

def as_data : Node → Option Octets
  | .data bytes => some bytes
  | _ => none

def as_signed_integer : Node → Option Int
  | .integer n => if -9223372036854775808 ≤ n ∧ n ≤ 9223372036854775807 then some n else none
  | _ => none

end Node

-- Why something failed: a text, or the error that Apple's sign-in or its developer services gave.
inductive Cause where
  | text (s : Str)
  | auth (code : Int) (message : Str)
  | developer (code : Int) (message : Str)
  deriving DecidableEq

-- The outermost context comes first.
abbrev Report := List Cause

def report (s : String) : Report := [.text s.toList]

section Fields

variable {α : Type}

def extract (as : Node → Option α) (kind : String) (d : Dictionary) (key : String) : Except Report α :=
  match (d.lookup key.toList).bind as with
  | some a => .ok a
  | none => .error (report ("Plist missing " ++ kind ++ " for key '" ++ key ++ "'"))

def get_data : Dictionary → String → Except Report Octets := extract Node.as_data "data"

def get_str : Dictionary → String → Except Report Str := extract Node.as_string "string"

def get_signed_integer : Dictionary → String → Except Report Int :=
  extract Node.as_signed_integer "signed integer"

def get_dict : Dictionary → String → Except Report Dictionary :=
  extract Node.as_dictionary "dictionary"

end Fields

-- An error stands in the answer's `Status`, or in the answer itself.
def check_grandslam_error (d : Dictionary) : Except Report Dictionary :=
  let result :=
    match d.lookup "Status".toList with
    | some (.dictionary status) => status
    | _ => d
  if (get_signed_integer result "ec").toOption.getD 0 ≠ 0 then
    .error [.auth ((get_signed_integer result "ec").toOption.getD (-1))
      ((get_str result "em").toOption.getD "Unknown error".toList)]
  else .ok d

end Answers

section Anisette

abbrev Headers := List (Str × Str)

-- What identifies the device to Apple.
structure AnisetteData where
  machine_id : Str
  one_time_password : Str
  routing_info : Str
  device_description : Str
  device_unique_identifier : Str
  local_user_id : Str
  generated_at : Int

def AnisetteData.get_headers (a : AnisetteData) : Headers := [
  ("X-Mme-Device-Id".toList, a.device_unique_identifier),
  ("X-Apple-I-MD".toList, a.one_time_password),
  ("X-Apple-I-MD-M".toList, a.machine_id)]

-- `HeaderValue::from_str`: no control characters but the tab.
def header_value (s : Str) : Except Report Str :=
  if (Utf8.encode s).all fun b => (32 ≤ b && b != 127) || b == 9 then .ok s
  else .error (report "failed to parse header value")

def AnisetteData.get_header_map (a : AnisetteData) : Except Report Headers :=
  a.get_headers.mapM fun h => return (h.1, ← header_value h.2)

def AnisetteData.get_client_provided_data (a : AnisetteData) : Headers := [
  ("bootstrap".toList, "true".toList),
  ("icscrec".toList, "true".toList),
  ("loc".toList, "en_US".toList),
  ("pbe".toList, "false".toList),
  ("prkgen".toList, "true".toList),
  ("svct".toList, "iCloud".toList)] ++ a.get_headers

end Anisette

section Requests

-- The requests of a session with Apple, each with what it carries.
inductive Request where
  | url_bag
  | begin_proof (url email : Str) (a_pub : Octets) (cpd : Headers)
  | complete (url email : Str) (proof : Octets) (c : Str) (cpd : Headers)
  | send_device_code (url : Str) (headers : Headers)
  | validate_code (url : Str) (headers : Headers) (code : Str)
  | trusted_numbers (headers : Headers)
  | put_phone (headers : Headers) (id : UInt32)
  | post_code (headers : Headers) (code : Str) (id : UInt32)
  | app_tokens (url app u t : Str) (c checksum : Octets) (cpd : Headers)
  | developer (url : Str) (body : Dictionary) (headers : Headers)

-- An answer over HTTP, whose body may be cut off.
structure Reply where
  status : UInt16
  text : Except Report Str

-- The numbers that can be sent a code.
structure TrustedNumber where
  number_with_dial_code : Str
  last_two_digits : Str
  push_mode : Str
  id : UInt32

structure TwoFactorCallbackParams where
  last_error : Option Str
  -- it is not known which way will work, and the user is to choose
  unknown : Bool
  sms : Bool
  numbers : List TrustedNumber
  selected_number_id : Option UInt32

inductive TwoFactorCallbackResponse where
  | submit_code (code : Str)
  | send_sms (id : UInt32)
  | send_to_devices
  | resend_code
  | abort

-- What a session calls: the callback that its sign-in was given, and the outside.
inductive Call where
  | two_factor_callback (params : TwoFactorCallbackParams)
  -- with the addresses that the client knows
  | get_anisette_data (gs : Dictionary)
  | random
  -- the text of a new UUID
  | new_v4
  | send (req : Request)

@[reducible] def Answer : Call → Type
  | .two_factor_callback _ => Except Report TwoFactorCallbackResponse
  | .get_anisette_data _ => Except Report AnisetteData
  | .random => Octets
  | .new_v4 => Str
  | .send _ => Except Report Reply

abbrev SignIn := ExceptT Report (Prog Answer)

def perform (c : Call) : Prog Answer (Answer c) := Prog.perform c

def context {α : Type} (s : String) (x : SignIn α) : SignIn α := ExceptT.adapt (report s ++ ·) x

def send (req : Request) : SignIn Reply := ExceptT.mk (perform (.send req))

def anisette_data (gs : Dictionary) (why : String) : SignIn AnisetteData :=
  context why (ExceptT.mk (perform (.get_anisette_data gs)))

def Reply.is_success (r : Reply) : Bool := 200 ≤ r.status && r.status < 300

def Reply.error_for_status (r : Reply) : Except Report Reply :=
  if 400 ≤ r.status && r.status < 600 then .error (report "HTTP status error") else .ok r

variable (plist : Octets → Option Dictionary)

-- What an answer to a plist request holds.
def read_response (r : Reply) : Except Report Dictionary := do
  let r ← (r.error_for_status).mapError (report "Received error response from grandslam" ++ ·)
  let text ← r.text.mapError (report "Failed to read grandslam response as text" ++ ·)
  match plist (Utf8.encode text) with
  | none => .error (report "Failed to parse grandslam response plist")
  | some dict =>
      match (dict.lookup "Response".toList).bind Node.as_dictionary with
      | none => .error (report "grandslam response missing 'Response'")
      | some response => .ok response

def plist_request (req : Request) : SignIn Dictionary := do
  let r ← context "Failed to send grandslam request" (send req)
  read_response plist r

-- The addresses of the service, asked for once.
def fetch_url_bag : SignIn Dictionary := do
  let r ← context "Failed to fetch URL Bag" (send .url_bag)
  let text ← r.text.mapError (report "Failed to read URL Bag response text" ++ ·)
  match plist (Utf8.encode text) with
  | none => throw (report "Failed to parse URL Bag plist")
  | some dict =>
      match (dict.lookup "urls".toList).bind Node.as_dictionary with
      | none => throw (report "URL Bag plist missing 'urls' dictionary")
      | some urls => return urls

def get_url (url_bag : Dictionary) (key : String) : Except Report Str :=
  (get_str url_bag key).mapError (report "Unable to find key in URL bag" ++ ·)

end Requests

end AltKeeper.GrandSlam
