import AltKeeper.Anisette
import AltKeeper.Lib.Interpret

-- The provider's identity is the one on the disk, in all that it says and all that it stores.
namespace AltKeeper.Anisette

open GrandSlam (AnisetteData Dictionary Report)
open Prog (OnOk uses_try wp_context_bind wp_seq wp_try wp_try_any)

section Identity

variable (lib : Libs) (state : AnisetteState)

-- What the file holds is read as this state.
def Reads (file : Option Octets) : Prop :=
  ∃ data, file = some data ∧ lib.from_bytes data = some (state.keychain_identifier.1, state.adi_pb)

-- The same device; and nothing else of it, once it is provisioned.
structure Same (state' : AnisetteState) : Prop where
  identifier : state'.keychain_identifier = state.keychain_identifier
  provisioned : state.is_provisioned = true → state' = state

def Kept (file : Option Octets) : Prop := ∃ state', Same state state' ∧ Reads lib state' file

-- What the server is to make the data with.
structure Asked (body : Value) : Prop where
  identifier : body.get "identifier" = .string (Base64.encode state.keychain_identifier.1)
  adi_pb : ∀ adi_pb ∈ state.adi_pb, body.get "adi_pb" = .string (Base64.encode adi_pb)

-- No other identity is drawn, said or stored, and a device is provisioned once.
def Call.Shows : Call → Prop
  | .random => False
  | .connect _ => state.is_provisioned = false
  | .send_text message =>
      message = identifier_message state ∨ message.get "identifier" = .null
  | .plist_request _ _ headers => provisioning_headers lib state = .ok headers
  | .get_headers _ body => Asked state body
  | .write_state data => ∃ state', Same state state' ∧ state'.is_provisioned = true ∧
      lib.to_writer_xml state' = .ok data
  | _ => True

-- The file is read as it is, and written as it is given.
def disk : Prog.Protocol Answer (Option Octets) where
  allows _ c := c.Shows lib state
  step file c r file' :=
    match c, r with
    | .read_state, r => file' = file ∧ r = file.elim (.error .not_found) .ok
    | .write_state data, .ok () => file' = some data
    | _, _ => file' = file

-- A failure of the file, after which it may hold anything.
def file_fails : (c : Call) → Answer c → Prop
  | .read_state, .error .failed => True
  | .write_state _, .error _ => True
  | _, _ => False

end Identity

section Provisioning

variable {lib : Libs} {state state' : AnisetteState} {file : Option Octets}

theorem Same.headers (h : Same state state') :
    provisioning_headers lib state' = provisioning_headers lib state := by
  rw [provisioning_headers, AnisetteState.get_md_lu, AnisetteState.get_device_id, h.identifier]
  rfl

theorem Same.message (h : Same state state') : identifier_message state' = identifier_message state := by
  rw [identifier_message, h.identifier]
  rfl

theorem Same.unprovisioned (h : Same state state') (hnot : state'.is_provisioned = false) :
    state.is_provisioned = false := by
  by_contra hprovisioned
  rw [h.provisioned (eq_true_of_ne_false hprovisioned)] at hnot
  exact hprovisioned hnot

section Rules

variable {α β : Type} {x : Except Report α} {f : α → Device β} {Q : Call → Prop}

theorem uses_attempt (h : ∀ a, x = .ok a → (f a).run.Uses Q) : (attempt x >>= f).run.Uses Q := by
  cases x with
  | error e => trivial
  | ok a => exact h a rfl

theorem attempt_uses : (attempt x).run.Uses Q := by
  cases x <;> trivial

theorem try_call_uses {why : Report} {x : Prog Answer (Except Report α)} (hx : x.Uses Q) :
    (try_call why x).run.Uses Q := hx.bind fun _ => trivial

end Rules

-- What is allowed does not depend on the file.
theorem disk_wp {α : Type} {p : Prog Answer α} (hp : p.Uses (Call.Shows lib state))
    (file : Option Octets) : p.wp (disk lib state) (fun _ _ => True) file :=
  Prog.wp_of_uses_keep hp (fun _ _ _ hc => ⟨hc, fun _ _ _ => trivial⟩) trivial

variable (lib)

theorem ask_apple_uses (h : Same state state') (why : String) (url : Str) (cpim : Option Str) :
    (ask_apple lib why state' url cpim).run.Uses (Call.Shows lib state) := by
  refine uses_attempt fun headers hheaders => uses_try (try_call_uses ⟨?_, fun _ => trivial⟩) fun r => ?_
  · exact h.headers.symm.trans hheaders
  · exact attempt_uses

theorem reply_to_uses (h : Same state state') (start_provisioning end_provisioning : Str)
    (msg : ProvisioningMessage) :
    (reply_to lib state' start_provisioning end_provisioning msg).run.Uses (Call.Shows lib state) := by
  cases msg with
  | give_identifier =>
      exact uses_try (try_call_uses ⟨.inl h.message, fun _ => trivial⟩) fun _ => trivial
  | give_start_provisioning_data =>
      refine uses_try (ask_apple_uses lib h _ _ _) fun response => uses_attempt fun spim _ => ?_
      exact uses_try (try_call_uses ⟨.inr rfl, fun _ => trivial⟩) fun _ => trivial
  | give_end_provisioning_data cpim =>
      refine uses_try (ask_apple_uses lib h _ _ _) fun response => ?_
      refine uses_attempt fun ptm _ => uses_attempt fun tk _ => ?_
      exact uses_try (try_call_uses ⟨.inr rfl, fun _ => trivial⟩) fun _ => trivial
  | provisioning_success adi_pb =>
      dsimp only [reply_to]
      cases lib.base64_decode adi_pb <;> trivial
  | _ => trivial

-- A conversation that ends well has brought the data.
theorem provision_loop_wp (h : Same state state') (start_provisioning end_provisioning : Str)
    (fuel : Nat) (file : Option Octets) :
    (provision_loop lib state' start_provisioning end_provisioning fuel).wp (disk lib state)
      (fun r _ => r.2 = .ok () → r.1.isSome = true) file := by
  induction fuel generalizing file with
  | zero => exact nofun
  | succ fuel ih =>
      refine ⟨trivial, ?_⟩
      rintro r file -
      rcases r with _ | e | text | _
      · exact ih file
      · exact nofun
      · dsimp only [Prog.bind]
        cases lib.provisioning_message text with
        | none => exact nofun
        | some msg =>
            refine wp_seq (disk_wp (reply_to_uses lib h start_provisioning end_provisioning msg) file) ?_
            rintro (e | (_ | adi_pb)) file -
            · exact nofun
            · exact ih file
            · exact ⟨trivial, fun _ _ _ _ => rfl⟩
      · exact nofun

theorem provision_wp (h : Same state state') (hnot : state'.is_provisioned = false) (fuel : Nat)
    (gs : Dictionary) (url : Str) (file : Option Octets) :
    (provision lib fuel state' gs url).wp (disk lib state)
      (fun r _ => r.2 = .ok () → r.1.isSome = true) file := by
  unfold provision
  split
  · exact nofun
  · refine ⟨h.unprovisioned hnot, ?_⟩
    rintro (e | ⟨⟨⟩⟩) file -
    · exact nofun
    · exact provision_loop_wp lib h _ _ fuel file

end Provisioning

section Provider

variable {lib : Libs} {state : AnisetteState} {file : Option Octets}

-- What a provider has in its hands is the same device.
def Provider.Has (state : AnisetteState) (p : Provider) : Prop :=
  ∀ state' ∈ p.state, Same state state'

theorem load_state_wp {p : Provider} (hp : p.Has state) (hkept : Kept lib state file) :
    (load_state lib p).run.wp (disk lib state) (OnOk fun state' _ => Same state state') file := by
  unfold load_state
  cases hstate : p.state with
  | some state' => exact hp state' hstate
  | none =>
      obtain ⟨stored, hsame, data, rfl, hread⟩ := hkept
      have hcall : (ExceptT.lift (perform .read_state) : Device (Except ReadError Octets)).run.wp
          (disk lib state) (OnOk fun r _ => r = .ok data) (some data) := by
        refine ⟨trivial, ?_⟩
        rintro _ _ ⟨-, rfl⟩
        rfl
      refine wp_try hcall ?_
      rintro _ _ rfl
      dsimp only
      rw [hread]
      dsimp only
      rw [dif_pos stored.keychain_identifier.2]
      exact hsame

theorem store_state_uses {state' : AnisetteState} (h : Same state state')
    (hprovisioned : state'.is_provisioned = true) :
    (store_state lib state').run.Uses (Call.Shows lib state) := by
  refine uses_attempt fun data hdata => ?_
  refine uses_try (try_call_uses ⟨trivial, fun _ => trivial⟩) fun _ => ?_
  exact try_call_uses ⟨⟨state', h, hprovisioned, hdata⟩, fun _ => trivial⟩

theorem get_state_wp {p : Provider} (hp : p.Has state) (hkept : Kept lib state file) (fuel : Nat)
    (gs : Dictionary) : (get_state lib fuel p gs).wp (disk lib state) (fun r _ => r.2.Has state) file := by
  refine wp_seq (load_state_wp hp hkept) ?_
  rintro (e | state') file hsame
  · exact hp
  dsimp only
  split
  · rename_i hprovisioned
    refine wp_seq (disk_wp (store_state_uses hsame hprovisioned) file) ?_
    rintro r file -
    rintro _ ⟨⟩
    exact hsame
  · rename_i hnot
    refine wp_seq (provision_wp lib hsame (eq_false_of_ne_true hnot) fuel gs p.url file) ?_
    rintro ⟨adi_pb, ended⟩ file hbrought
    have hstate := hsame.unprovisioned (eq_false_of_ne_true hnot)
    -- what the conversation brought is the device's own
    have hprovisioned : ∀ adi_pb, Same state { state' with adi_pb } := fun adi_pb =>
      ⟨hsame.identifier, fun h => by rw [hstate] at h; cases h⟩
    cases ended with
    | error e =>
        rintro _ ⟨⟩
        cases adi_pb with
        | none => exact hsame
        | some data => exact hprovisioned (some data)
    | ok _ =>
        obtain ⟨data, rfl⟩ := Option.isSome_iff_exists.mp (hbrought rfl)
        refine wp_seq (disk_wp (store_state_uses (hprovisioned (some data)) rfl) file) ?_
        rintro r file -
        rintro _ ⟨⟩
        exact hprovisioned (some data)

theorem provider_data_wp {p : Provider} (hp : p.Has state) (file : Option Octets) :
    (p.get_anisette_data lib).run.wp (disk lib state)
      (OnOk fun a _ => a.device_unique_identifier = state.get_device_id) file := by
  unfold Provider.get_anisette_data
  cases hstate : p.state with
  | none => trivial
  | some state' =>
      have hsame := hp state' hstate
      cases hadi : state'.adi_pb with
      | none =>
          rw [Option.bind_some, hadi]
          trivial
      | some adi_pb =>
          rw [Option.bind_some, hadi]
          have hasked : (perform (.get_headers (p.url ++ "/v3/get_headers".toList)
              (.object [("adi_pb".toList, .string (Base64.encode adi_pb)),
                ("identifier".toList, .string (Base64.encode state'.keychain_identifier.1))]))).Uses
              (Call.Shows lib state) := by
            refine ⟨?_, fun _ => trivial⟩
            constructor
            · rw [← hsame.identifier]
              rfl
            · intro adi_pb' hadi'
              have heq := hsame.provisioned (Option.isSome_iff_exists.mpr ⟨adi_pb', hadi'⟩)
              rw [heq, hadi'] at hadi
              rw [Option.some.inj hadi]
              rfl
          have hdevice : state'.get_device_id = state.get_device_id := by
            rw [AnisetteState.get_device_id, hsame.identifier]
            rfl
          refine wp_try_any (disk_wp (try_call_uses hasked) file) fun r file => ?_
          refine wp_context_bind fun r _ => wp_context_bind fun text _ => ?_
          cases lib.anisette_headers text with
          | none => trivial
          | some headers =>
              cases headers with
              | get_headers_error message => trivial
              | headers machine_id one_time_password routing_info =>
                  exact ⟨trivial, fun _ _ _ => hdevice⟩

variable (hround : ∀ (state' : AnisetteState) (data : Octets), state'.is_provisioned = true →
  lib.to_writer_xml state' = .ok data →
  lib.from_bytes data = some (state'.keychain_identifier.1, state'.adi_pb))

include hround

-- What the file holds is kept by every call.
theorem kept_step {c : Call} {r : Answer c} {file' : Option Octets} (hkept : Kept lib state file)
    (hc : (disk lib state).allows file c) (hstep : (disk lib state).step file c r file') :
    Kept lib state file' := by
  cases c with
  | read_state =>
      obtain ⟨rfl, -⟩ := hstep
      exact hkept
  | write_state data =>
      cases r with
      | error e =>
          obtain rfl := hstep
          exact hkept
      | ok _ =>
          obtain rfl := hstep
          obtain ⟨state', hsame, hprovisioned, hdata⟩ := hc
          exact ⟨state', hsame, data, rfl, hround state' data hprovisioned hdata⟩
  | _ =>
      obtain rfl := hstep
      exact hkept

end Provider

section Generator

variable {lib : Libs} {state : AnisetteState} {file : Option Octets}

-- The provider's device, and data of the same.
structure Generator.Has (state : AnisetteState) (g : Generator) : Prop where
  provider : g.provider.Has state
  data : ∀ a ∈ g.data, a.device_unique_identifier = state.get_device_id

def Given (state : AnisetteState) (r : Except Trouble AnisetteData × Generator) : Prop :=
  (∀ a, r.1 = .ok a → a.device_unique_identifier = state.get_device_id) ∧ r.2.Has state

theorem fresh_data_wp {g : Generator} (hg : g.Has state) (hkept : Kept lib state file) (fuel : Nat)
    (gs : Dictionary) :
    (fresh_data lib fuel g gs).wp (disk lib state) (fun r _ => Given state r) file := by
  have hready : (provisioned lib fuel g.provider gs).wp (disk lib state)
      (fun r _ => r.2.Has state) file := by
    unfold provisioned
    split
    · exact get_state_wp hg.provider hkept fuel gs
    · exact hg.provider
  refine wp_seq hready ?_
  rintro ⟨ready, provider⟩ file hprovider
  cases ready with
  | error e => exact ⟨nofun, hprovider, hg.data⟩
  | ok _ =>
      refine wp_seq (provider_data_wp hprovider file) ?_
      rintro (e | a) file hdevice
      · exact ⟨nofun, hprovider, hg.data⟩
      · refine ⟨?_, hprovider, ?_⟩
        · rintro _ ⟨⟩
          exact hdevice
        · rintro _ ⟨⟩
          exact hdevice

theorem get_anisette_data_wp {g : Generator} (hg : g.Has state) (hkept : Kept lib state file)
    (fuel : Nat) (gs : Dictionary) :
    (get_anisette_data lib fuel g gs).wp (disk lib state) (fun r _ => Given state r) file := by
  unfold get_anisette_data
  cases hdata : g.data with
  | none => exact fresh_data_wp hg hkept fuel gs
  | some a =>
      refine ⟨trivial, ?_⟩
      rintro now _ rfl
      simp only [Prog.pure_eq, Prog.bind]
      split
      · exact fresh_data_wp hg hkept fuel gs
      · refine ⟨?_, hg⟩
        rintro _ ⟨⟩
        exact hg.data a hdata

end Generator

end AltKeeper.Anisette
