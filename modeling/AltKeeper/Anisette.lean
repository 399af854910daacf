import AltKeeper.Developer

-- The identity that this device shows to Apple: where it is kept, how it comes to be, and the data
-- that is made with it.
namespace AltKeeper.Anisette

open GrandSlam (Report report Dictionary Headers Reply AnisetteData header_value get_str get_url
  read_response)

section State

abbrev KeychainIdentifier := { bytes : Octets // bytes.length = 16 }

structure AnisetteState where
  keychain_identifier : KeychainIdentifier
  adi_pb : Option Octets := none
  deriving DecidableEq

def AnisetteState.is_provisioned (state : AnisetteState) : Bool := state.adi_pb.isSome

-- `Uuid::to_string`.
def uuid_text (bytes : Octets) : Str :=
  let hex := bytes.flatMap AltServer.hex_byte
  let part (start length : Nat) := (hex.drop start).take length
  List.intercalate ['-'] [part 0 8, part 8 4, part 12 4, part 16 4, part 20 12]

def AnisetteState.get_device_id (state : AnisetteState) : Str := uuid_text state.keychain_identifier.1

-- What the server of the provisioning says.
inductive ProvisioningMessage where
  | give_identifier
  | give_start_provisioning_data
  | give_end_provisioning_data (cpim : Str)
  | provisioning_success (adi_pb : Str)
  | timeout
  | invalid_identifier
  | start_provisioning_error (message : Str)
  | end_provisioning_error (message : Str)

inductive AnisetteHeaders where
  | get_headers_error (message : Str)
  | headers (machine_id one_time_password routing_info : Str)

-- The readers and writers of other libraries.
structure Libs extends Developer.Libs where
  -- the bytes under the two keys of a state, the second one optional
  from_bytes : Octets → Option (Octets × Option Octets)
  to_writer_xml : AnisetteState → Except Report Octets
  provisioning_message : Str → Option ProvisioningMessage
  anisette_headers : Str → Option AnisetteHeaders
  base64_decode : Str → Option Octets

def AnisetteState.get_md_lu (lib : Libs) (state : AnisetteState) : Octets :=
  lib.grandslam.sha256 state.keychain_identifier.1

end State

section Calls

inductive ReadError where
  | not_found
  | failed

inductive WsMessage where
  | text (t : Str)
  | close

inductive Call where
  | create_dir_all (path : Str)
  | set_permissions (path : Str) (mode : Nat)
  -- the file `anisette_state` of the state's directory
  | read_state
  | write_state (data : Octets)
  | random
  | now
  | connect (url : Str)
  | next
  | send_text (message : Value)
  | close
  | plist_request (url : Str) (cpim : Option Str) (headers : Headers)
  | get_headers (url : Str) (body : Value)

@[reducible] def Answer : Call → Type
  | .create_dir_all _ => Except Str Unit
  | .set_permissions _ _ => Except Str Unit
  | .read_state => Except ReadError Octets
  | .write_state _ => Except Report Unit
  | .random => KeychainIdentifier
  | .now => Int
  | .connect _ => Except Report Unit
  | .next => Option (Except Report WsMessage)
  | .send_text _ => Except Report Unit
  | .close => Except Report Unit
  | .plist_request _ _ _ => Except Report Reply
  | .get_headers _ _ => Except Report Reply

-- Why something came to no end that it was made for. A state on the disk whose identifier is not
-- one panics; the messages of a provisioning are followed up to a number.
inductive Trouble where
  | failed (e : Report)
  | panic
  | unfinished

abbrev Device := ExceptT Trouble (Prog Answer)

def perform (c : Call) : Prog Answer (Answer c) := Prog.perform c

def attempt {α : Type} (x : Except Report α) : Device α := liftM (x.mapError Trouble.failed)

-- A call that may fail, with what is said of the failure.
def try_call {α : Type} (why : Report) (x : Prog Answer (Except Report α)) : Device α :=
  ExceptT.mk (x >>= fun r => .ret (r.mapError fun e => .failed (why ++ e)))

end Calls

section Provisioning

variable (lib : Libs)

def provisioning_headers (state : AnisetteState) : Except Report Headers := do
  let md_lu ← header_value ((state.get_md_lu lib).flatMap AltServer.hex_byte)
  let device_id ← header_value state.get_device_id
  .ok [("X-Apple-I-MD-LU".toList, md_lu), ("X-Mme-Device-Id".toList, device_id)]

def identifier_message (state : AnisetteState) : Value :=
  .object [("identifier".toList, .string (Base64.encode state.keychain_identifier.1))]

def ask_apple (why : String) (state : AnisetteState) (url : Str) (cpim : Option Str) :
    Device Dictionary := do
  let headers ← attempt (provisioning_headers lib state)
  let r ← try_call (report why ++ report "Failed to send grandslam request")
    (perform (.plist_request url cpim headers))
  attempt ((read_response lib.grandslam.plist r).mapError (report why ++ ·))

-- What is done with a message; the last one brings the data.
def reply_to (state : AnisetteState) (start_provisioning end_provisioning : Str) :
    ProvisioningMessage → Device (Option Octets)
  | .give_identifier => do
      try_call (report "Failed to send identifier") (perform (.send_text (identifier_message state)))
      return none
  | .give_start_provisioning_data => do
      let response ← ask_apple lib "Failed to send start provisioning request" state
        start_provisioning none
      let spim ← attempt ((get_str response "spim").mapError
        (report "Start provisioning response missing spim" ++ ·))
      try_call (report "Failed to send start provisioning data")
        (perform (.send_text (.object [("spim".toList, .string spim)])))
      return none
  | .give_end_provisioning_data cpim => do
      let response ← ask_apple lib "Failed to send end provisioning request" state
        end_provisioning (some cpim)
      let ptm ← attempt ((get_str response "ptm").mapError
        (report "End provisioning response missing ptm" ++ ·))
      let tk ← attempt ((get_str response "tk").mapError
        (report "End provisioning response missing tk" ++ ·))
      try_call (report "Failed to send start provisioning data")
        (perform (.send_text (.object [("ptm".toList, .string ptm), ("tk".toList, .string tk)])))
      return none
  | .provisioning_success adi_pb =>
      match lib.base64_decode adi_pb with
      | none => throw (.failed (report "Invalid base64"))
      | some data => return some data
  | .timeout => throw (.failed (report "Anisette provisioning timed out"))
  | .invalid_identifier => throw (.failed (report "Anisette provisioning failed: invalid identifier"))
  | .start_provisioning_error message => throw (.failed (
      report "Anisette provisioning failed: start provisioning error" ++ [.text message]))
  | .end_provisioning_error message => throw (.failed (
      report "Anisette provisioning failed: end provisioning error" ++ [.text message]))

-- The conversation: the data, when it came, and how it ended. A stream that has nothing to give is
-- asked again.
def provision_loop (state : AnisetteState) (start_provisioning end_provisioning : Str) :
    Nat → Prog Answer (Option Octets × Except Trouble Unit)
  | 0 => return (none, .error .unfinished)
  | fuel + 1 => do
      match ← perform .next with
      | none => provision_loop state start_provisioning end_provisioning fuel
      | some (.error e) => return (none, .error (.failed e))
      | some (.ok .close) =>
          return (none, .error (.failed (report "Provisioning socket closed unexpectedly")))
      | some (.ok (.text text)) =>
          match lib.provisioning_message text with
          | none => return (none, .error (.failed (report "Invalid provisioning message")))
          | some msg =>
              match ← (reply_to lib state start_provisioning end_provisioning msg).run with
              | .error e => return (none, .error e)
              | .ok none => provision_loop state start_provisioning end_provisioning fuel
              | .ok (some adi_pb) =>
                  let closed ← perform .close
                  return (some adi_pb, closed.mapError .failed)

-- `replace`, of a text that is not empty.
def replace (pattern new : Str) : Nat → Str → Str
  | _, [] => []
  | skip + 1, _ :: s => replace pattern new skip s
  | 0, c :: s =>
      if pattern.isPrefixOf (c :: s) then new ++ replace pattern new (pattern.length - 1) s
      else c :: replace pattern new 0 s

def websocket_url (url : Str) : Str :=
  replace "http://".toList "ws://".toList 0
    (replace "https://".toList "wss://".toList 0 (url ++ "/v3/provisioning_session".toList))

def provision (fuel : Nat) (state : AnisetteState) (gs : Dictionary) (url : Str) :
    Prog Answer (Option Octets × Except Trouble Unit) := do
  match (do
      let start_provisioning ← get_url gs "midStartProvisioning"
      let end_provisioning ← get_url gs "midFinishProvisioning"
      .ok (start_provisioning, end_provisioning) : Except Report (Str × Str)) with
  | .error e => return (none, .error (.failed e))
  | .ok (start_provisioning, end_provisioning) =>
      match ← perform (.connect (websocket_url url)) with
      | .error e =>
          return (none, .error (.failed (report "Failed to connect to provisioning socket" ++ e)))
      | .ok () => provision_loop lib state start_provisioning end_provisioning fuel

end Provisioning

section Provider

def DEFAULT_ANISETTE_V3_URL : Str := "https://ani.stikstore.app".toList

def STATE_DIR : Str := "state".toList

structure Provider where
  state : Option AnisetteState := none
  url : Str := DEFAULT_ANISETTE_V3_URL

def Provider.needs_provisioning (p : Provider) : Bool :=
  match p.state with
  | some state => !state.is_provisioned
  | none => true

variable (lib : Libs) (fuel : Nat)

-- A file that cannot be read, or not as a state, is as good as none.
def load_state (p : Provider) : Device AnisetteState := do
  match p.state with
  | some state => return state
  | none =>
      match ← ExceptT.lift (perform .read_state) with
      | .error _ => return { keychain_identifier := ← ExceptT.lift (perform .random) }
      | .ok data =>
          match lib.from_bytes data with
          | none => return { keychain_identifier := ← ExceptT.lift (perform .random) }
          | some (identifier, adi_pb) =>
              if h : identifier.length = 16 then return { keychain_identifier := ⟨identifier, h⟩, adi_pb }
              else throw .panic

def store_state (state : AnisetteState) : Device Unit := do
  let data ← attempt (lib.to_writer_xml state)
  try_call (report "Failed to create storage directory")
    (perform (.create_dir_all STATE_DIR) >>= fun r => .ret (r.mapError fun e => [.text e]))
  try_call (report "Failed to write data to file") (perform (.write_state data))

-- The state stays with the provider, whatever becomes of the rest.
def get_state (p : Provider) (gs : Dictionary) : Prog Answer (Except Trouble Unit × Provider) := do
  match ← (load_state lib p).run with
  | .error e => return (.error e, p)
  | .ok state =>
      if state.is_provisioned then
        return (← (store_state lib state).run, { p with state := some state })
      else
        let (adi_pb, ended) ← provision lib fuel state gs p.url
        let state := match adi_pb with
          | some _ => { state with adi_pb }
          | none => state
        match ended with
        | .error e => return (.error e, { p with state := some state })
        | .ok () => return (← (store_state lib state).run, { p with state := some state })

def client_info : Str :=
  "<Mac15,7> <macOS;27.0;26A5378j> <com.apple.AuthKit/1 (com.apple.akd/1.0)>".toList

def ANISETTE_NOT_PROVISIONED : Report :=
  report "Failed to get anisette data, anisette not provisioned"

-- The provider's own data, as the server makes them for its identity.
def Provider.get_anisette_data (p : Provider) : Device AnisetteData := do
  match p.state.bind fun state => state.adi_pb.map (state, ·) with
  | none => throw (.failed ANISETTE_NOT_PROVISIONED)
  | some (state, adi_pb) =>
      let r ← try_call [] (perform (.get_headers (p.url ++ "/v3/get_headers".toList)
        (.object [("adi_pb".toList, .string (Base64.encode adi_pb)),
          ("identifier".toList, .string (Base64.encode state.keychain_identifier.1))])))
      let r ← attempt r.error_for_status
      let text ← attempt r.text
      match lib.anisette_headers text with
      | none => throw (.failed (report "error decoding response body"))
      | some (.get_headers_error message) =>
          throw (.failed (report "Failed to get anisette headers" ++ [.text message]))
      | some (.headers machine_id one_time_password routing_info) =>
          return { machine_id, one_time_password, routing_info
                   device_description := client_info
                   device_unique_identifier := state.get_device_id
                   local_user_id := (state.get_md_lu lib).flatMap AltServer.hex_byte
                   generated_at := ← ExceptT.lift (perform .now) }

structure Generator where
  provider : Provider
  data : Option AnisetteData := none

-- A clock that was set back makes the data old.
def needs_refresh (data : AnisetteData) : Prog Answer Bool := do
  let now ← perform .now
  return now < data.generated_at || 60 < (now - data.generated_at) / 1000000000

def provisioned (p : Provider) (gs : Dictionary) : Prog Answer (Except Trouble Unit × Provider) :=
  if p.needs_provisioning then get_state lib fuel p gs else return (.ok (), p)

def fresh_data (g : Generator) (gs : Dictionary) :
    Prog Answer (Except Trouble AnisetteData × Generator) := do
  let (ready, provider) ← provisioned lib fuel g.provider gs
  match ready with
  | .error e => return (.error e, { g with provider })
  | .ok () =>
      match ← (provider.get_anisette_data lib).run with
      | .error e => return (.error e, { g with provider })
      | .ok data => return (.ok data, { provider, data := some data })

def get_anisette_data (g : Generator) (gs : Dictionary) :
    Prog Answer (Except Trouble AnisetteData × Generator) := do
  match g.data with
  | none => fresh_data lib fuel g gs
  | some data =>
      if ← needs_refresh data then fresh_data lib fuel g gs else return (.ok data, g)

end Provider

end AltKeeper.Anisette
