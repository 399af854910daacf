import AltKeeper.Base64
import AltKeeper.Lib.Bytes
import AltKeeper.Phone
import Mathlib.Algebra.Group.Int.Defs

-- A connection of AltStore: its requests, what each asks of the phone, and the replies.
namespace AltKeeper.AltServer

def MAX_JSON : Nat := 4 * 1024 * 1024
def MAX_IPA : UInt64 := 1024 * 1024 * 1024
def IO_TIMEOUT : Nat := 120
def IPA_TIMEOUT : Nat := 600
def ANISETTE_TTL : Int := 20000000000

def ERR_DEVICE_NOT_FOUND : Int64 := 3
def ERR_INVALID_REQUEST : Int64 := 5
def ERR_INVALID_APP : Int64 := 7
def ERR_INSTALLATION_FAILED : Int64 := 8
def ERR_UNSUPPORTED_IOS : Int64 := 10
def ERR_UNKNOWN_REQUEST : Int64 := 11
def ERR_INVALID_ANISETTE : Int64 := 13
def ERR_APP_DELETION_FAILED : Int64 := 16

structure Ctx where
  phone : Option SocketAddr

section Messages

variable (ext : Ext)

def i32_from_le_bytes (bytes : Octets) : Int :=
  let n := Bytes.ofLe32 (bytes.getD 0 0) (bytes.getD 1 0) (bytes.getD 2 0) (bytes.getD 3 0)
  if n < 2 ^ 31 then n else n - 2 ^ 32

-- `none` when the other side closed between two messages.
def read_frame : Act (Except Str (Option Octets)) := do
  match ← ask (.read_exact 4 IO_TIMEOUT) with
  | .expired _ => return .error "nessuna richiesta entro il tempo limite".toList
  | .failed kind _ =>
      if kind = .unexpectedEof ∨ kind = .connectionReset ∨ kind = .brokenPipe then return .ok none
      else return .error "errore di lettura".toList
  | .bytes len =>
      let n := i32_from_le_bytes len.1
      if n ≤ 0 ∨ (MAX_JSON : Int) < n then
        return .error ("lunghezza del messaggio non valida: ".toList ++ (toString n).toList)
      match ← ask (.read_exact n.toNat IO_TIMEOUT) with
      | .expired _ => return .error "messaggio incompleto: tempo scaduto".toList
      | .failed _ _ => return .error "errore di lettura".toList
      | .bytes body => return .ok (some body.1)

def write_frame (v : Value) : Act (Except Str Unit) :=
  let body := ext.to_vec v
  ask (.write_all (Bytes.le32 body.length ++ body))

def json_int (n : Int64) : Value :=
  if n < 0 then .number (.negInt n) else .number (.posInt (UInt64.ofNat n.toInt.toNat))

-- The fields of an object are kept in the order of their names.
def simple (identifier : String) : Value :=
  .object [("identifier".toList, .string identifier.toList), ("version".toList, json_int 1)]

def progress (p : ℚ) : Value :=
  .object [("identifier".toList, .string "InstallationProgressResponse".toList),
    ("progress".toList, .number (.float p)), ("version".toList, json_int 1)]

def error (code : Int64) : Value :=
  .object [("errorCode".toList, json_int code), ("identifier".toList, .string "ErrorResponse".toList),
    ("version".toList, json_int 3)]

def send (v : Value) : Act (Except Str Unit) := write_frame ext v

end Messages

section Anisette

def anisette_reply (v : Value) : Value :=
  .object [("anisetteData".toList, v), ("identifier".toList, .string "AnisetteDataResponse".toList),
    ("version".toList, json_int 1)]

def fresh_anisette : Act Value := do
  match ← ask .anisette_for_altstore with
  | .ok v =>
      ask (.set_cache v)
      return anisette_reply v
  | .error _ => return error ERR_INVALID_ANISETTE

-- The cache answers with the age of what it holds.
def cached_anisette : Act Value := do
  match ← ask .get_cache with
  | none => fresh_anisette
  | some (age, v) => if age < ANISETTE_TTL then return anisette_reply v else fresh_anisette

def anisette : Act Value := do
  ask .lock_cache
  let reply ← cached_anisette
  ask .unlock_cache
  return reply

end Anisette

section Operations

variable (ext : Ext) (ctx : Ctx)

def phone_link : Act (Except Int64 Unit) := do
  match ← Phone.connect_auto ext (fun _ => return ()) ctx.phone with
  | .ok _ => return .ok ()
  | .error _ => return .error ERR_DEVICE_NOT_FOUND

-- What the four operations share: the lock, the link, and both given back in the end. In
-- their results the outer `none` is a panic of the parser.
def with_phone {α : Type} (op : Act (Option (Except Int64 α))) : Act (Option (Except Int64 α)) := do
  ask .lock_work
  match ← phone_link ext ctx with
  | .error code =>
      ask .unlock_work
      return some (.error code)
  | .ok () =>
      let result ← op
      ask .drop_link
      ask .unlock_work
      return result

def decode_profiles (req : Value) : Option (List Octets) := do
  ((← (req.get "provisioningProfiles").as_array)).mapM fun v => do b64_decode (← v.as_str)

-- Each blob is parsed for its name in the log.
def install_blobs : List Octets → Act (Option (Except Int64 Unit))
  | [] => return some (.ok ())
  | blob :: blobs => do
      match ext.parse blob with
      | none => return none
      | some _ =>
          match ← ask (.install blob) with
          | .error _ => return some (.error ERR_INSTALLATION_FAILED)
          | .ok () => install_blobs blobs

-- Without profiles the phone is left alone.
def install_all (blobs : List Octets) : Act (Option (Except Int64 Unit)) := do
  if blobs = [] then return some (.ok ())
  with_phone ext ctx (install_blobs ext blobs)

def install_profiles (req : Value) : Act (Option Value) := do
  match decode_profiles req with
  | none => return some (error ERR_INVALID_REQUEST)
  | some blobs =>
      match ← install_all ext ctx blobs with
      | none => return none
      | some (.error code) => return some (error code)
      | some (.ok ()) => return some (simple "InstallProvisioningProfilesResponse")

def wanted_bundles (req : Value) : List Str :=
  (((req.get "bundleIdentifiers").as_array).map fun a =>
    a.filterMap fun v => v.as_str.map ext.to_lowercase).getD []

def matches_wanted (wanted : List Str) (p : Profile.PhoneProfile) : Bool :=
  p.bundle_id.any fun b => decide (ext.to_lowercase b ∈ wanted)

-- A removal that fails is only logged.
def remove_if_wanted (wanted : List Str) (p : Profile.PhoneProfile) : Act Unit := do
  if matches_wanted ext wanted p then
    let _ ← ask (.remove p.uuid)

def remove_matching (wanted : List Str) : List Octets → Act (Option (Except Int64 Unit))
  | [] => return some (.ok ())
  | raw :: rest => do
      match ext.parse raw with
      | none => return none
      | some none => remove_matching wanted rest
      | some (some p) =>
          remove_if_wanted ext wanted p
          remove_matching wanted rest

def remove_from_phone (wanted : List Str) : Act (Option (Except Int64 Unit)) := do
  match ← ask .copy_all with
  | .error _ => return some (.error ERR_INSTALLATION_FAILED)
  | .ok raw => remove_matching ext wanted raw

def remove_all (wanted : List Str) : Act (Option (Except Int64 Unit)) := do
  if wanted = [] then return some (.ok ())
  with_phone ext ctx (remove_from_phone ext wanted)

def remove_profiles (req : Value) : Act (Option Value) := do
  match ← remove_all ext ctx (wanted_bundles ext req) with
  | none => return none
  | some (.error code) => return some (error code)
  | some (.ok ()) => return some (simple "RemoveProvisioningProfilesResponse")

def uninstall (bundle : Str) : Act (Option (Except Int64 Unit)) := do
  match ← ask .connect_installer with
  | .error _ => return some (.error ERR_APP_DELETION_FAILED)
  | .ok () =>
      match ← ask (.uninstall bundle) with
      | .error _ => return some (.error ERR_APP_DELETION_FAILED)
      | .ok () => return some (.ok ())

def remove_app (req : Value) : Act (Option Value) := do
  match (req.get "bundleIdentifier").as_str.filter (· ≠ []) with
  | none => return some (error ERR_INVALID_REQUEST)
  | some bundle =>
      match ← with_phone ext ctx (uninstall bundle) with
      | none => return none
      | some (.error code) => return some (error code)
      | some (.ok ()) => return some (simple "RemoveAppResponse")

-- 100 is only sent at the end, when the installation is over.
def report_progress : List UInt64 → Act Unit
  | [] => return ()
  | pct :: pcts => do
      let _ ← send ext (progress ((min pct 99).toNat / 100))
      report_progress pcts

-- The installer's callback is awaited at each percentage it reports.
def install_app (ipa : Octets) : Act (Option (Except Int64 Unit)) := do
  let pcts ← ask (.begin_install ipa)
  report_progress ext pcts
  match ← ask .end_install with
  | .error _ => return some (.error ERR_INSTALLATION_FAILED)
  | .ok () => return some (.ok ())

def receive_and_install (req : Value) : Act (Option (Except Int64 Unit)) := do
  let size := ((req.get "contentSize").as_u64).getD 0
  if size = 0 ∨ MAX_IPA < size then return some (.error ERR_INVALID_REQUEST)
  match ← ask (.read_exact size.toNat IPA_TIMEOUT) with
  | .expired _ => return some (.error ERR_INVALID_REQUEST)
  | .failed _ _ => return some (.error ERR_INVALID_REQUEST)
  | .bytes ipa =>
      match ← read_frame with
      | .error _ => return some (.error ERR_INVALID_REQUEST)
      | .ok none => return some (.error ERR_INVALID_REQUEST)
      | .ok (some frame) =>
          let next := (ext.from_slice frame).getD .null
          if (next.get "identifier").as_str ≠ some "BeginInstallationRequest".toList then
            return some (.error ERR_UNKNOWN_REQUEST)
          -- an IPA is a zip
          if ¬ (Utf8.encode "PK".toList).isPrefixOf ipa.1 then return some (.error ERR_INVALID_APP)
          with_phone ext ctx (install_app ext ipa.1)

end Operations

section Connection

variable (ext : Ext) (ctx : Ctx)

def dispatch (req : Value) : Act (Option Value) := do
  let id := (req.get "identifier").as_str.getD []
  if id = "AnisetteDataRequest".toList then return some (← anisette)
  else if id = "InstallProvisioningProfilesRequest".toList then install_profiles ext ctx req
  else if id = "RemoveProvisioningProfilesRequest".toList then remove_profiles ext ctx req
  else if id = "RemoveAppRequest".toList then remove_app ext ctx req
  else if id = "EnableUnsignedCodeExecutionRequest".toList then return some (error ERR_UNSUPPORTED_IOS)
  else if id = "PrepareAppRequest".toList then
    match ← receive_and_install ext ctx req with
    | none => return none
    | some (.ok ()) => return some (progress 1)
    | some (.error code) => return some (error code)
  else return some (error ERR_UNKNOWN_REQUEST)

inductive Ending where
  | closed
  | panicked
  -- the number of requests to follow was reached
  | unfinished
  deriving DecidableEq

def handle_connection : Nat → Act Ending
  | 0 => return .unfinished
  | fuel + 1 => do
      match ← read_frame with
      | .error _ => return .closed
      | .ok none => return .closed
      | .ok (some frame) =>
          match ext.from_slice frame with
          | none =>
              let _ ← send ext (error ERR_INVALID_REQUEST)
              return .closed
          | some req =>
              ask (.log_request req)
              match ← dispatch ext ctx req with
              | none => return .panicked
              | some reply =>
                  match ← send ext reply with
                  | .error _ => return .closed
                  | .ok () => handle_connection fuel

end Connection

end AltKeeper.AltServer
