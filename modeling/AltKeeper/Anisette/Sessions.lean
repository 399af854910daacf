import AltKeeper.Anisette.Device
import AltKeeper.Env
import AltKeeper.GrandSlam.Device
import AltKeeper.Iso8601
import AltKeeper.System

-- What the program does with its identity: it opens sessions with Apple, and makes the data that
-- AltStore asks for. Through all of it the device is one.
namespace AltKeeper.Anisette

open Developer (DeveloperDeviceType DeveloperSession download_team_provisioning_profile from_account
  list_app_ids list_teams)
open GrandSlam (AnisetteData Report SignIn DEVICE_ID)
open Prog (Both inner outer wp_inner wp_outer wp_seq wp_try)

section Sessions

-- The server of the user's own, if there is one.
def anisette_url (value : Option Str) : Except Str (Option Str) :=
  match (value.map Str.trim).filter fun v => !v.isEmpty with
  | none => .ok none
  | some u =>
      if "https://".toList.isPrefixOf u || "http://".toList.isPrefixOf u then
        .ok (some (u.reverse.dropWhile (· = '/')).reverse)
      else .error "ALTKEEPER_ANISETTE_URL deve iniziare con http:// o https://".toList

variable (vars : Str → Option Str)

def anisette_provider : Prog Answer (Except Str Provider) := do
  match ← perform (.create_dir_all STATE_DIR) with
  | .error e => return .error e
  | .ok () =>
      match ← perform (.set_permissions STATE_DIR 0o700) with
      | .error e => return .error e
      | .ok () =>
          match anisette_url (Env.var vars "ANISETTE_URL") with
          | .error e => return .error e
          | .ok url => return .ok { url := url.getD DEFAULT_ANISETTE_V3_URL }

-- Calls of a sign-in, and calls of the provider.
abbrev Outside := Prog (Both GrandSlam.Answer Answer)

variable (lib : Libs) (fuel : Nat)

-- What the sign-in is told: a panic ends it as a failure does.
def Trouble.report : Trouble → Report
  | .failed e => e
  | .panic => GrandSlam.report "panic"
  | .unfinished => GrandSlam.report "unfinished"

-- The data of a sign-in comes from its generator, and the rest is called as it is.
def serve (g : Generator) : (c : GrandSlam.Call) → Outside (GrandSlam.Answer c × Generator)
  | .get_anisette_data gs => do
      let (r, g) ← inner (get_anisette_data lib fuel g gs)
      return (r.mapError Trouble.report, g)
  | c => .call (.inl c) fun r => .ret (r, g)

-- What a session is opened for.
inductive Errand where
  | list_teams
  | list_app_ids (team : DeveloperTeam) (device_type : Option DeveloperDeviceType)
  | download (team : DeveloperTeam) (app : Developer.AppId) (device_type : Option DeveloperDeviceType)

-- What fails ends the session.
def run_errands (sess : DeveloperSession) : List Errand → SignIn Unit
  | [] => return ()
  | .list_teams :: rest => do
      let _ ← list_teams lib.toLibs sess
      run_errands sess rest
  | .list_app_ids team device_type :: rest => do
      let _ ← list_app_ids lib.toLibs sess team device_type
      run_errands sess rest
  | .download team app device_type :: rest => do
      let _ ← download_team_provisioning_profile lib.toLibs sess team app device_type
      run_errands sess rest

def session (apple_id password : Str) (errands : List Errand) : SignIn Unit := do
  let acct ← GrandSlam.login lib.grandslam apple_id password
  let sess ← from_account lib.toLibs acct
  run_errands lib sess errands

-- The calls of a session, whatever comes of it.
def run_session (apple_id password : Str) (errands : List Errand) : Outside Unit := do
  match ← inner (anisette_provider vars) with
  | .error _ => return ()
  | .ok provider =>
      let _ ← (session lib apple_id password errands).run.expand_with (serve lib fuel) { provider }
      return ()

-- The time of the answer, or its beginning when the clock is before that.
def epoch_secs (now : Int) : UInt64 := if now < 0 then 0 else UInt64.ofNat (now / 1000000000).toNat

def altstore_json (data : AnisetteData) (date : Str) : Value := .object [
  ("date".toList, .string date),
  ("deviceDescription".toList, .string client_info),
  ("deviceSerialNumber".toList, .string "2".toList),
  ("deviceUniqueIdentifier".toList, .string data.device_unique_identifier),
  ("localUserID".toList, .string data.local_user_id),
  ("locale".toList, .string "en_US".toList),
  ("machineID".toList, .string data.machine_id),
  ("oneTimePassword".toList, .string data.one_time_password),
  ("routingInfo".toList, .string data.routing_info),
  ("timeZone".toList, .string "GMT".toList)]

def anisette_for_altstore : Outside (Except Fail Value) := do
  match ← inner (anisette_provider vars) with
  | .error e => return .error (.err e)
  | .ok provider =>
      match ← outer (GrandSlam.fetch_url_bag lib.grandslam.plist).run with
      | .error e => return .error (.err (lib.grandslam.display e))
      | .ok gs =>
          let (r, _) ← inner (get_anisette_data lib fuel { provider } gs)
          match r with
          | .error .panic => return .error .panic
          | .error e => return .error (.err (lib.grandslam.display e.report))
          | .ok data =>
              let now ← inner (perform .now)
              match Apple.iso8601_utc (epoch_secs now) with
              | none => return .error .panic
              | some date => return .ok (altstore_json data date)

inductive Session where
  | apple (apple_id password : Str) (errands : List Errand)
  | anisette_for_altstore

-- Sessions one after the other, and what AltStore was given.
def sessions : List Session → Outside (List Value)
  | [] => return []
  | .apple apple_id password errands :: rest => do
      run_session vars lib fuel apple_id password errands
      sessions rest
  | .anisette_for_altstore :: rest => do
      let r ← anisette_for_altstore vars lib fuel
      return r.toOption.toList ++ (← sessions rest)

end Sessions

section Device

variable (lib : Libs) (state : AnisetteState)

-- Everything that is said, to Apple and to the server of the data, is said of one device.
def one_device : Prog.Protocol (Both GrandSlam.Answer Answer) (Option Octets) where
  allows _ c :=
    match c with
    | .inl c => c.Shows state.get_device_id
    | .inr c => c.Shows lib state
  step file c r file' :=
    match c, r with
    | .inl _, _ => file' = file
    | .inr c, r => (disk lib state).step file c r file'

def device_fails : (c : GrandSlam.Call ⊕ Call) → Both GrandSlam.Answer Answer c → Prop
  | .inl _, _ => False
  | .inr c, r => file_fails c r

variable {lib state} {vars : Str → Option Str} {fuel : Nat} {file : Option Octets}
  (hround : ∀ (state' : AnisetteState) (data : Octets), state'.is_provisioned = true →
    lib.to_writer_xml state' = .ok data →
    lib.from_bytes data = some (state'.keychain_identifier.1, state'.adi_pb))

theorem inner_wp {α : Type} {p : Prog Answer α} {post : α → Option Octets → Prop}
    (hp : p.wp (disk lib state) post file) : (inner p).wp (one_device lib state) post file :=
  wp_inner (fun _ _ h => h) (fun _ _ _ _ h => h) hp

theorem outer_wp {α : Type} {p : Prog GrandSlam.Answer α}
    (hp : p.Uses (GrandSlam.Call.Shows state.get_device_id)) :
    (outer p).wp (one_device lib state) (fun _ file' => file' = file) file := by
  let quiet : Prog.Protocol GrandSlam.Answer (Option Octets) :=
    { allows := fun _ c => c.Shows state.get_device_id, step := fun file _ _ file' => file' = file }
  have hquiet : p.wp quiet (fun _ file' => file' = file) file :=
    Prog.wp_of_uses hp fun _ hc => ⟨hc, fun _ _ h => h⟩
  exact wp_outer (fun _ _ h => h) (fun _ _ _ _ h => h) hquiet

theorem provider_wp (vars : Str → Option Str) (file : Option Octets) :
    (anisette_provider vars).wp (disk lib state)
      (fun r file' => file' = file ∧ ∀ p, r = .ok p → p.Has state) file := by
  refine ⟨trivial, ?_⟩
  rintro (e | ⟨⟨⟩⟩) _ rfl
  · exact ⟨rfl, nofun⟩
  refine ⟨trivial, ?_⟩
  rintro (e | ⟨⟨⟩⟩) _ rfl
  · exact ⟨rfl, nofun⟩
  dsimp only [Prog.bind]
  cases anisette_url (Env.var vars "ANISETTE_URL") with
  | error e => exact ⟨rfl, nofun⟩
  | ok url =>
      refine ⟨rfl, ?_⟩
      rintro _ ⟨⟩
      exact nofun

theorem session_shows {device : Str} (apple_id password : Str) (errands : List Errand) :
    GrandSlam.Shown device (session lib apple_id password errands) := by
  refine wp_try (GrandSlam.login_shows apple_id password) fun acct _ _ => ?_
  refine wp_try (GrandSlam.from_account_shows acct) fun sess _ _ => ?_
  induction errands with
  | nil => trivial
  | cons errand errands ih =>
      cases errand with
      | list_teams => exact wp_try GrandSlam.list_teams_shows fun _ _ _ => ih
      | list_app_ids team device_type =>
          exact wp_try (GrandSlam.list_app_ids_shows team device_type) fun _ _ _ => ih
      | download team app device_type =>
          exact wp_try (GrandSlam.download_shows team app device_type) fun _ _ _ => ih

include hround

theorem generator_wp {g : Generator} (hg : g.Has state) (hkept : Kept lib state file)
    (gs : GrandSlam.Dictionary) :
    (inner (get_anisette_data lib fuel g gs)).wp (one_device lib state)
      (fun r file' => Given state r ∧ Kept lib state file') file :=
  inner_wp (Prog.wp_and_keep (fun _ _ _ _ h hc hstep => kept_step hround h hc hstep)
    (get_anisette_data_wp hg hkept fuel gs) hkept)

theorem serve_wp {g : Generator} (hg : g.Has state ∧ Kept lib state file) {c : GrandSlam.Call}
    (hc : c.Shows state.get_device_id) :
    (serve lib fuel g c).wp (one_device lib state) (fun r file' => ∃ u,
      (GrandSlam.showing state.get_device_id).step () c r.1 u ∧ r.2.Has state ∧
        Kept lib state file') file := by
  cases c with
  | get_anisette_data gs =>
      refine wp_seq (generator_wp hround hg.1 hg.2 gs) ?_
      rintro ⟨r, g⟩ file ⟨⟨hdevice, hg⟩, hkept⟩
      refine ⟨(), ?_, hg, hkept⟩
      cases r with
      | error e => trivial
      | ok a => exact hdevice a rfl
  | _ =>
      refine ⟨hc, ?_⟩
      rintro r _ rfl
      exact ⟨(), trivial, hg⟩

theorem run_session_wp (hkept : Kept lib state file) (apple_id password : Str)
    (errands : List Errand) :
    (run_session vars lib fuel apple_id password errands).wp (one_device lib state)
      (fun _ file' => Kept lib state file') file := by
  refine wp_seq (inner_wp (provider_wp vars file)) ?_
  rintro (e | provider) _ ⟨rfl, hprovider⟩
  · exact hkept
  have hg : Generator.Has state { provider } := ⟨hprovider provider rfl, by simp⟩
  have hserve : ∀ (u : Unit) (g : Generator) (file : Option Octets) (c : GrandSlam.Call),
      g.Has state ∧ Kept lib state file → (GrandSlam.showing state.get_device_id).allows u c →
      (serve lib fuel g c).wp (one_device lib state) (fun r file' => ∃ u',
        (GrandSlam.showing state.get_device_id).step u c r.1 u' ∧ r.2.Has state ∧
          Kept lib state file') file := fun _ _ _ _ h hc => serve_wp hround h hc
  refine wp_seq (Prog.wp_expand_with hserve (session_shows apple_id password errands) ⟨hg, hkept⟩) ?_
  rintro r file ⟨-, -, -, hkept⟩
  exact hkept

theorem altstore_wp (hkept : Kept lib state file) :
    (anisette_for_altstore vars lib fuel).wp (one_device lib state) (fun r file' =>
      Kept lib state file' ∧ ∀ v, r = .ok v →
        v.get "deviceUniqueIdentifier" = .string state.get_device_id) file := by
  refine wp_seq (inner_wp (provider_wp vars file)) ?_
  rintro (e | provider) _ ⟨rfl, hprovider⟩
  · exact ⟨hkept, nofun⟩
  have hg : Generator.Has state { provider } := ⟨hprovider provider rfl, by simp⟩
  refine wp_seq (outer_wp (GrandSlam.url_bag_uses trivial)) ?_
  rintro (e | gs) _ rfl
  · exact ⟨hkept, nofun⟩
  refine wp_seq (generator_wp hround hg hkept gs) ?_
  rintro ⟨r, g⟩ file ⟨⟨hdevice, -⟩, hkept⟩
  cases r with
  | error e => cases e <;> exact ⟨hkept, nofun⟩
  | ok data =>
      refine wp_seq (inner_wp (p := perform .now) ⟨trivial, fun _ _ h => h⟩) ?_
      rintro now _ rfl
      cases Apple.iso8601_utc (epoch_secs now) with
      | none => exact ⟨hkept, nofun⟩
      | some date =>
          refine ⟨hkept, ?_⟩
          rintro _ ⟨⟩
          exact congrArg Value.string (hdevice data rfl)

theorem sessions_wp (hkept : Kept lib state file) (list : List Session) :
    (sessions vars lib fuel list).wp (one_device lib state) (fun given file' =>
      Kept lib state file' ∧
        ∀ v ∈ given, v.get "deviceUniqueIdentifier" = .string state.get_device_id) file := by
  induction list generalizing file with
  | nil => exact ⟨hkept, List.forall_mem_nil _⟩
  | cons session list ih =>
      cases session with
      | apple apple_id password errands =>
          exact wp_seq (run_session_wp hround hkept apple_id password errands) fun _ _ hkept => ih hkept
      | anisette_for_altstore =>
          refine wp_seq (altstore_wp hround hkept) ?_
          rintro r file ⟨hkept, hv⟩
          refine wp_seq (ih hkept) ?_
          rintro given file ⟨hkept, hgiven⟩
          refine ⟨hkept, fun v hmem => ?_⟩
          rcases List.mem_append.mp hmem with hmem | hmem
          · cases r with
            | error e => cases hmem
            | ok v' =>
                obtain rfl := List.mem_singleton.mp hmem
                exact hv v rfl
          · exact hgiven v hmem

-- From a disk that holds a device, through any number of sessions and whatever is answered, until
-- the file itself fails: every request, every message and all data is that device's; no other is
-- drawn, or stored; and it is not provisioned again.
theorem same_device (hfile : Reads lib state file) (list : List Session) :
    (sessions vars lib fuel list).wp ((one_device lib state).until device_fails)
      (fun given file' => ∀ f ∈ file', Kept lib state f ∧
        ∀ v ∈ given, v.get "deviceUniqueIdentifier" = .string state.get_device_id) (some file) := by
  apply Prog.wp_until
  rintro _ ⟨⟩
  exact sessions_wp hround ⟨state, ⟨rfl, fun _ => rfl⟩, hfile⟩ list

end Device

section Sample

def sample_state : AnisetteState :=
  { keychain_identifier := ⟨List.replicate 16 7, rfl⟩, adi_pb := some [1] }

def sample_xml : Octets := Utf8.encode (sample_text [
  "<?xml version=\"1.0\" encoding=\"UTF-8\"?>\n", "<!DOCTYPE plist PUBLIC ",
  "\"-//Apple//DTD PLIST 1.0//EN\" ", "\"http:", "//www.apple.com/DTDs/", "PropertyList-1.0.dtd\">\n",
  "<plist version=\"1.0\">\n<dict>\n",
  "\t<key>keychain_identifier</key>\n\t<data>\n", "\tBwcHBwcHBwcHBwcHBwcHBw==\n\t</data>\n",
  "\t<key>adi_pb</key>\n\t<data>\n\tAQ==\n\t</data>\n", "</dict>\n</plist>"])

def sample_libs : Libs where
  toLibs := Developer.sample_libs
  from_bytes data := if data = sample_xml then some (List.replicate 16 7, some [1]) else none
  to_writer_xml state := if state = sample_state then .ok sample_xml else .error []
  provisioning_message _ := none
  anisette_headers _ := some (.headers [] [] [])
  base64_decode _ := none

theorem sample_round (state : AnisetteState) (data : Octets)
    (h : sample_libs.to_writer_xml state = .ok data) :
    sample_libs.from_bytes data = some (state.keychain_identifier.1, state.adi_pb) := by
  simp only [sample_libs] at h ⊢
  split_ifs at h with hstate
  rw [← Except.ok.inj h, hstate, if_pos rfl]
  rfl

theorem sample_reads : Reads sample_libs sample_state (some sample_xml) := by
  refine ⟨sample_xml, rfl, sample_round sample_state sample_xml ?_⟩
  simp only [sample_libs, if_true]

theorem same_device_sample :
    (sessions (fun _ => none) sample_libs 0 [.apple "a@b.c".toList "p".toList [.list_teams],
      .anisette_for_altstore, .apple "a@b.c".toList "p".toList []]).wp
      ((one_device sample_libs sample_state).until device_fails)
      (fun given file' => ∀ f ∈ file', Kept sample_libs sample_state f ∧
        ∀ v ∈ given, v.get "deviceUniqueIdentifier" = .string sample_state.get_device_id)
      (some (some sample_xml)) :=
  same_device (fun state data _ h => sample_round state data h) sample_reads _

end Sample

end AltKeeper.Anisette
