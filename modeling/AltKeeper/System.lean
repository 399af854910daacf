import AltKeeper.Json
import AltKeeper.Profile
import AltKeeper.Lib.Bytes
import AltKeeper.Lib.Prog

-- What the program asks of the outside: the commands of its parts, and the library functions
-- whose code is not in the repository.
namespace AltKeeper

structure SocketAddr where
  ip : Octets
  port : UInt16
  deriving DecidableEq

structure Account where
  apple_id : Str
  password : Str
  team_id : Option Str
  deriving DecidableEq

structure DeveloperTeam where
  team_id : Str
  name : Option Str

structure AppId where
  identifier : Str
  name : Str

-- A profile as Apple gives it.
structure Download where
  encoded_profile : Octets
  date_expire : Int

-- `account` is serde_json's reader for an account file, `plist` the plist library's reader.
structure Ext where
  from_slice : Octets → Option Value
  to_vec : Value → Octets
  account : Str → Except Str Account
  plist : Octets → Option Plist
  to_lowercase : Str → Str
  date_text : Int → Str
  addr_text : SocketAddr → Str
  parse_addr : Str → Option SocketAddr

def Ext.parse (ext : Ext) (raw : Octets) : Option (Option Profile.PhoneProfile) :=
  Profile.parse ext.plist raw

section Web

inductive Level where
  | urgent
  | soon
  | ok
  deriving DecidableEq

structure AppView where
  bundle : Str
  label : Str
  days : Int
  expires : Str
  level : Level
  deriving DecidableEq

structure Snapshot where
  checked_at : Option UInt64 := none
  checking : Bool := false
  reachable : Option Bool := none
  address : Option Str := none
  error : Option Str := none
  detail : Option Str := none
  profiles_total : Nat := 0
  apps : List AppView := []

inductive JobKind where
  | none
  | renew_all
  | renew_due
  deriving DecidableEq

structure JobView where
  kind : JobKind := .none
  running : Bool := false
  lines : List Str := []
  ok : Option Bool := none

inductive Phase where
  | none
  | working
  | done
  | failed
  deriving DecidableEq

structure LoginView where
  phase : Phase := .none
  message : Str := []

structure Inner where
  snapshot : Snapshot := {}
  job : JobView := {}
  login : LoginView := {}

-- What a job was asked to do.
inductive Job where
  | check
  | renew (force : Bool)
  | login (apple_id password : Str) (save : Bool)

inductive TfaAnswer where
  | code (code : Str)
  | resend
  deriving DecidableEq

end Web

section Outcomes

inductive ErrorKind where
  | unexpectedEof
  | connectionReset
  | brokenPipe
  | other
  deriving DecidableEq

-- A read of exactly `count` bytes. When it is given up, `lost` bytes had been taken from the
-- stream; nobody sees them again.
inductive ReadOutcome (count : Nat) where
  | bytes (bytes : { bytes : Octets // bytes.length = count })
  | expired (lost : Nat)
  | failed (kind : ErrorKind) (lost : Nat)

-- One attempt to reach the phone, within its time limit.
inductive Attempt where
  | linked
  | failed (e : Str)
  | expired

end Outcomes

inductive Cmd where
  -- a connection of AltStore
  | read_exact (count limit : Nat)
  | write_all (bytes : Octets)
  | log_request (req : Value)
  | lock_work
  | unlock_work
  | lock_cache
  | unlock_cache
  | get_cache
  | set_cache (v : Value)
  | anisette_for_altstore
  -- files and clock
  | pairing_exists
  | read_account
  | save_account (acc : Account)
  | read_last_addr
  | write_last_addr (text : Str)
  | read_renew_log
  | open_renew_log
  | append_renew_log (text : Str)
  | local_time
  | system_time
  | create_dir_all (path : Str)
  | set_permissions (path : Str) (mode : Nat)
  | write_file (path : Str) (bytes : Octets)
  | open_truncate (path : Str) (mode : Nat)
  | write_opened (bytes : Octets)
  | read_file (path : Str)
  -- the phone
  | discover
  | scan_lan (port : UInt16)
  | connect (addr : SocketAddr)
  | drop_link
  | copy_all
  | install (blob : Octets)
  | remove (uuid : Str)
  | connect_installer
  | uninstall (bundle : Str)
  | begin_install (ipa : Octets)
  | end_install
  -- Apple
  | prepare_state
  | begin_login (apple_id password : Str)
  | answer_login (answer : Option TfaAnswer)
  | end_login
  | developer_session
  | list_teams
  | list_app_ids (team : DeveloperTeam)
  | download_profile (team : DeveloperTeam) (app : AppId)
  -- the state shared with the page
  | try_busy
  | load_busy
  | drop_guard
  | spawn (job : Job)
  | read_inner
  | write_inner (f : Inner → Inner)
  | load_asking
  | store_asking (asking : Bool)
  | load_last_error
  | store_last_error (e : Option Str)
  | publish_sender
  | take_sender
  | send_answer (tx : Nat) (answer : TfaAnswer)
  | wait_answer (rx : Nat)
  | respond (status : Nat) (body : Value)
  | println (line : Str)
  -- a timer that may have run out, a panic that may have struck, and what either unwinds
  | expired
  | panicked
  | unwind

@[reducible] def Resp : Cmd → Type
  | .read_exact count _ => ReadOutcome count
  | .write_all _ => Except Str Unit
  | .get_cache => Option (Int × Value)
  | .anisette_for_altstore => Except Str Value
  | .pairing_exists => Bool
  | .read_account => Option Str
  | .save_account _ => Except Str Unit
  | .read_last_addr => Option Str
  | .read_renew_log => Option Str
  | .open_renew_log => Bool
  | .local_time => Str
  | .system_time => Int
  | .create_dir_all _ => Except Str Unit
  | .set_permissions _ _ => Except Str Unit
  | .write_file _ _ => Except Str Unit
  | .open_truncate _ _ => Except Str Unit
  | .write_opened _ => Except Str Unit
  | .read_file _ => Except Str Octets
  | .discover => List SocketAddr
  | .scan_lan _ => List SocketAddr
  | .connect _ => Attempt
  | .copy_all => Except Str (List Octets)
  | .install _ => Except Str Unit
  | .remove _ => Except Str Unit
  | .connect_installer => Except Str Unit
  | .uninstall _ => Except Str Unit
  | .begin_install _ => List UInt64
  | .end_install => Except Str Unit
  | .prepare_state => Except Str Unit
  | .begin_login _ _ => List (Option Str)
  | .end_login => Except Str Unit
  | .developer_session => Except Str Unit
  | .list_teams => Except Str (List DeveloperTeam)
  | .list_app_ids _ => Except Str (List AppId)
  | .download_profile _ _ => Except Str Download
  | .try_busy => Bool
  | .load_busy => Bool
  | .spawn _ => Bool
  | .read_inner => Inner
  | .load_asking => Bool
  | .load_last_error => Option Str
  | .publish_sender => Nat
  | .take_sender => Option Nat
  | .send_answer _ _ => Bool
  | .wait_answer _ => Option TfaAnswer
  | .expired => Bool
  | .panicked => Bool
  | _ => Unit

abbrev Act := Prog Resp

abbrev ask (c : Cmd) : Act (Resp c) := Prog.perform c

-- An `Err`, or the panic of a slice taken out of range.
inductive Fail where
  | err (e : Str)
  | panic

section Sample

-- The libraries on the few texts that the examples of the other modules use.

def sample_request (identifier : String) (fields : List (String × Value)) : Value :=
  .object (("identifier".toList, .string identifier.toList) :: fields.map fun f => (f.1.toList, f.2))

def sample_text (parts : List String) : Str := parts.flatMap String.toList

def remove_app_text : Str :=
  sample_text ["\x7b\"identifier\":", "\"RemoveAppRequest\",", "\"bundleIdentifier\":", "\"com.a\"\x7d"]

def remove_profiles_text : Str :=
  sample_text ["\x7b\"identifier\":", "\"RemoveProvisioning", "ProfilesRequest\",",
    "\"bundleIdentifiers\":", "[\"COM.A\"]\x7d"]

def install_profiles_text : Str :=
  sample_text ["\x7b\"identifier\":", "\"InstallProvisioning", "ProfilesRequest\",",
    "\"provisioningProfiles\":", "[\"PC9wbGlzdD54PD94bWw=\"]\x7d"]

def prepare_app_text : Str :=
  sample_text ["\x7b\"identifier\":", "\"PrepareAppRequest\",", "\"contentSize\":", "1073741825\x7d"]

def sample_json : List (Str × Value) := [
  (sample_text ["\x7b\x7d"], .object []),
  (remove_app_text, sample_request "RemoveAppRequest" [("bundleIdentifier", .string "com.a".toList)]),
  (remove_profiles_text, sample_request "RemoveProvisioningProfilesRequest"
    [("bundleIdentifiers", .array [.string "COM.A".toList])]),
  (install_profiles_text, sample_request "InstallProvisioningProfilesRequest"
    [("provisioningProfiles", .array [.string "PC9wbGlzdD54PD94bWw=".toList])]),
  (prepare_app_text, sample_request "PrepareAppRequest"
    [("contentSize", .number (.posInt 1073741825))])]

-- A profile of team T for com.a, as the entries before its end say.
def profile_of (entries : List String) : Octets := Utf8.encode (sample_text (
  ["<?xml version=\"1.0\"?>", "<plist version=\"1.0\">", "<dict>"] ++ entries ++
    ["<key>TeamIdentifier</key>", "<array><string>T", "</string></array>",
      "<key>Entitlements</key>", "<dict><key>application-", "identifier</key>",
      "<string>T.com.a", "</string></dict>", "</dict></plist>"]))

def plist_of (entries : List (String × Plist)) : Plist := .dictionary (
  (entries.map fun e => (e.1.toList, e.2)) ++
    [("TeamIdentifier".toList, .array [.string "T".toList]),
      ("Entitlements".toList,
        .dictionary [("application-identifier".toList, .string "T.com.a".toList)])])

def sample_profile : Octets := profile_of ["<key>UUID</key>", "<string>U1</string>"]

def renewed_profile : Octets := profile_of ["<key>UUID</key>", "<string>U2</string>",
  "<key>ExpirationDate</key>", "<date>1970-01-08", "T00:00:00Z</date>"]

def sample_plists : List (Octets × Plist) := [
  (sample_profile, plist_of [("UUID", .string "U1".toList)]),
  (renewed_profile, plist_of [("UUID", .string "U2".toList),
    ("ExpirationDate", .date 604800000000000)])]

def sample_account : Account :=
  { apple_id := "a@b.c".toList, password := "p".toList, team_id := some "T".toList }

def account_text : Str := sample_text
  ["\x7b\"apple_id\":", "\"a@b.c\",", "\"password\":\"p\",", "\"team_id\":\"T\"\x7d"]

def sample_addr : SocketAddr := ⟨[10, 0, 0, 7], 49152⟩

def sample_addr_text : Str := "10.0.0.7:49152".toList

def sample : Ext where
  from_slice bytes := (sample_json.find? fun e => Utf8.encode e.1 = bytes).map (·.2)
  to_vec v := if (v.get "identifier").as_str = some "ErrorResponse".toList then
      Utf8.encode "\x7b\"errorCode\":5,\"identifier\":\"ErrorResponse\",\"version\":3\x7d".toList
    else
      Utf8.encode ("\x7b\"identifier\":\"" ++ String.ofList ((v.get "identifier").as_str.getD []) ++
        "\",\"version\":1\x7d").toList
  account text :=
    if text = account_text then .ok sample_account
    else .error "EOF while parsing a value at line 1 column 0".toList
  plist bytes := sample_plists.lookup bytes
  to_lowercase := Str.to_ascii_lowercase
  date_text _ := "2026-10-01T00:00:00Z".toList
  addr_text _ := sample_addr_text
  parse_addr s := if s = sample_addr_text then some sample_addr else none

-- The outside when nothing answers: no file, no phone, no account, and streams at their end.
def silent : (c : Cmd) → Resp c
  | .read_exact _ _ => .failed .unexpectedEof 0
  | .write_all _ => .ok ()
  | .anisette_for_altstore => .error []
  | .pairing_exists => false
  | .save_account _ => .error []
  | .open_renew_log => false
  | .local_time => []
  | .system_time => (0 : Int)
  | .create_dir_all _ => .error []
  | .set_permissions _ _ => .error []
  | .write_file _ _ => .error []
  | .open_truncate _ _ => .error []
  | .write_opened _ => .error []
  | .read_file _ => .error []
  | .connect _ => .expired
  | .copy_all => .error []
  | .install _ => .error []
  | .remove _ => .error []
  | .connect_installer => .error []
  | .uninstall _ => .error []
  | .end_install => .error []
  | .prepare_state => .error []
  | .end_login => .error []
  | .developer_session => .error []
  | .list_teams => .error []
  | .list_app_ids _ => .error []
  | .download_profile _ _ => .error []
  | .try_busy => false
  | .load_busy => false
  | .spawn _ => true
  | .read_inner => {}
  | .load_asking => false
  | .publish_sender => (0 : Nat)
  | .send_answer _ _ => false
  | .expired => false
  | .panicked => false
  | .get_cache | .read_account | .read_last_addr | .read_renew_log | .load_last_error
  | .take_sender | .wait_answer _ => none
  | .discover | .scan_lan _ | .begin_install _ | .begin_login _ _ => []
  | .log_request _ | .lock_work | .unlock_work | .lock_cache | .unlock_cache | .set_cache _
  | .write_last_addr _ | .append_renew_log _ | .drop_link | .answer_login _ | .drop_guard
  | .write_inner _ | .store_asking _ | .store_last_error _ | .respond _ _
  | .println _ | .unwind => ()

-- A phone at the address remembered, that does what it is asked, and a client that sends
-- the same frame again and again.
def reached (frame : Octets) : (c : Cmd) → Resp c
  | .read_exact count _ =>
      let bytes := if count = 4 then Bytes.le32 frame.length else frame
      if h : bytes.length = count then .bytes ⟨bytes, h⟩ else .failed .unexpectedEof 0
  | .pairing_exists => true
  | .read_last_addr => some sample_addr_text
  | .connect _ => .linked
  | .remove _ => .ok ()
  | c => silent c

end Sample

end AltKeeper
