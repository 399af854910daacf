import AltKeeper.Anisette.Sessions
import AltKeeper.GrandSlam.Bag

-- A device is provisioned by Apple through the server of the data: the program hands on what the one
-- asks and the other answers, and keeps what comes of it.
namespace AltKeeper.Anisette

open GrandSlam (Bagged Dictionary Headers bagged get_str get_url read_response told)
open Prog (Both OnOk inner outer uses_lift_bind uses_try wp_context_bind wp_expand_with wp_inner
  wp_mono wp_outer wp_seq wp_try)

section Relay

-- What a run has come to: the addresses of the service that it was told last, the device that is in
-- use, and what was said last to the device's provider.
structure Past where
  url_bag : Option Dictionary := none
  device : Option AnisetteState := none
  last : Option (Prog.Event Answer) := none

variable (vars : Str → Option Str) (lib : Libs)

-- The device that a file holds.
def device_of (data : Octets) : Option AnisetteState :=
  match lib.from_bytes data with
  | none => none
  | some (identifier, adi_pb) =>
      if h : identifier.length = 16 then some { keychain_identifier := ⟨identifier, h⟩, adi_pb }
      else none

-- The data that a message brings: the one that ends a provisioning.
def ProvisioningMessage.data : ProvisioningMessage → Option Octets
  | .provisioning_success adi_pb => lib.base64_decode adi_pb
  | _ => none

def AnisetteState.with_data (state : AnisetteState) : Option Octets → AnisetteState
  | none => state
  | some data => { state with adi_pb := some data }

-- The device in use is the one that was read last, or was drawn instead, with what was brought to it.
def in_use (device : Option AnisetteState) : Prog.Event Answer → Option AnisetteState
  | ⟨.read_state, .ok data⟩ => device_of lib data
  | ⟨.read_state, .error _⟩ => none
  | ⟨.random, keychain_identifier⟩ => some { keychain_identifier }
  | ⟨.next, some (.ok (.text text))⟩ =>
      device.map fun state =>
        state.with_data ((lib.provisioning_message text).bind fun msg => msg.data lib)
  | _ => device

def Past.hear (past : Past) (e : Prog.Event Answer) : Past :=
  { past with device := in_use lib past.device e, last := some e }

def Past.after (past : Past) : Prog.Event (Both GrandSlam.Answer Answer) → Past
  | ⟨.inl (.send .url_bag), r⟩ => { past with url_bag := told lib.grandslam.plist r }
  | ⟨.inl _, _⟩ => past
  | ⟨.inr c, r⟩ => past.hear lib ⟨c, r⟩

-- The server of the user's own, or else the one that is always there.
def anisette_server : Except Str Str :=
  (anisette_url (Env.var vars "ANISETTE_URL")).map fun url => url.getD DEFAULT_ANISETTE_V3_URL

-- The device in use is this one, and it is still to be provisioned.
def Past.Unprovisioned (past : Past) (state : AnisetteState) : Prop :=
  past.device = some state ∧ state.is_provisioned = false

-- The last thing that happened is that the server said this.
def Said (past : Past) (msg : ProvisioningMessage) : Prop :=
  ∃ text, past.last = some ⟨.next, some (.ok (.text text))⟩ ∧ lib.provisioning_message text = some msg

-- The server has just asked for what Apple is to be asked, and this is where Apple is asked for it.
def Demanded (past : Past) (url : Str) : Option Str → Prop
  | none => Said lib past .give_start_provisioning_data ∧
      ∃ gs, past.url_bag = some gs ∧ get_url gs "midStartProvisioning" = .ok url
  | some cpim => Said lib past (.give_end_provisioning_data cpim) ∧
      ∃ gs, past.url_bag = some gs ∧ get_url gs "midFinishProvisioning" = .ok url

-- What the server is told of Apple's answer.
def Relayed (response : Dictionary) (message : Value) : Option Str → Prop
  | none => ∃ spim, get_str response "spim" = .ok spim ∧
      message = .object [("spim".toList, .string spim)]
  | some _ => ∃ ptm tk, get_str response "ptm" = .ok ptm ∧ get_str response "tk" = .ok tk ∧
      message = .object [("ptm".toList, .string ptm), ("tk".toList, .string tk)]

def Relays (past : Past) : Call → Prop
  | .random => past.device = none
  | .connect url => ∃ host state, anisette_server vars = .ok host ∧ url = websocket_url host ∧
      past.Unprovisioned state
  | .next => ∃ state, past.Unprovisioned state
  | .plist_request url cpim headers => ∃ state, past.Unprovisioned state ∧
      provisioning_headers lib state = .ok headers ∧ Demanded lib past url cpim
  | .send_text message =>
      (∃ state, past.Unprovisioned state ∧ Said lib past .give_identifier ∧
        message = identifier_message state) ∨
      ∃ url cpim headers reply response,
        past.last = some ⟨.plist_request url cpim headers, .ok reply⟩ ∧
        read_response lib.grandslam.plist reply = .ok response ∧ Relayed response message cpim
  | .get_headers url body => ∃ host state adi_pb, anisette_server vars = .ok host ∧
      url = host ++ "/v3/get_headers".toList ∧ past.device = some state ∧ state.adi_pb = some adi_pb ∧
      body = .object [("adi_pb".toList, .string (Base64.encode adi_pb)),
        ("identifier".toList, .string (Base64.encode state.keychain_identifier.1))]
  | .write_state data => ∃ state, past.device = some state ∧ state.is_provisioned = true ∧
      lib.to_writer_xml state = .ok data
  | _ => True

def talk : Prog.Protocol Answer Past where
  allows := Relays vars lib
  step past c r past' := past' = past.hear lib ⟨c, r⟩

-- Nothing is different but what was said last.
def Past.Same (past past' : Past) : Prop := past'.url_bag = past.url_bag ∧ past'.device = past.device

-- What brings no device, and brings nothing to it.
def Call.quiet : Call → Bool
  | .read_state => false
  | .random => false
  | .next => false
  | _ => true

end Relay

section Conversation

variable {vars : Str → Option Str} {lib : Libs} {past : Past} {state : AnisetteState}

theorem hear_quiet {c : Call} (hc : c.quiet = true) (r : Answer c) :
    past.Same (past.hear lib ⟨c, r⟩) := by
  cases c with
  | read_state => cases hc
  | random => cases hc
  | next => cases hc
  | _ => exact ⟨rfl, rfl⟩

theorem Past.Same.trans {past' past'' : Past} (h : past.Same past') (h' : past'.Same past'') :
    past.Same past'' := ⟨h'.1.trans h.1, h'.2.trans h.2⟩

theorem talk_same {α : Type} {p : Prog Answer α} {post : α → Past → Prop}
    (hquiet : p.Uses fun c => c.quiet = true) (hp : p.wp (talk vars lib) post past) :
    p.wp (talk vars lib) (fun a past' => post a past' ∧ past.Same past') past := by
  induction p generalizing past with
  | ret a => exact ⟨hp, rfl, rfl⟩
  | call c k ih =>
      refine ⟨hp.1, ?_⟩
      rintro r _ rfl
      refine wp_mono (ih r (hquiet.2 r) (hp.2 r _ rfl)) ?_
      rintro a past' ⟨ha, hsame⟩
      exact ⟨ha, (hear_quiet hquiet.1 r).trans hsame⟩

theorem try_call_wp {α : Type} {why : GrandSlam.Report} {x : Prog Answer (Except GrandSlam.Report α)}
    {post : α → Past → Prop}
    (hx : x.wp (talk vars lib) (fun r past' => ∀ a, r = .ok a → post a past') past) :
    (try_call why x).run.wp (talk vars lib) (OnOk post) past := by
  refine wp_seq (f := fun r => Prog.ret (r.mapError fun e => Trouble.failed (why ++ e))) hx ?_
  rintro (e | a) past' h
  · trivial
  · exact h a rfl

theorem ask_apple_quiet {why : String} {url : Str} {cpim : Option Str} :
    (ask_apple lib why state url cpim).run.Uses fun c => c.quiet = true :=
  uses_lift_bind fun _ => uses_try (try_call_uses ⟨rfl, fun _ => trivial⟩) fun _ => attempt_uses

theorem reply_to_quiet {start_provisioning end_provisioning : Str} (msg : ProvisioningMessage) :
    (reply_to lib state start_provisioning end_provisioning msg).run.Uses
      fun c => c.quiet = true := by
  have htell {why : GrandSlam.Report} {message : Value} :
      (try_call why (perform (.send_text message))).run.Uses fun c => c.quiet = true :=
    try_call_uses ⟨rfl, fun _ => trivial⟩
  cases msg with
  | give_identifier => exact uses_try htell fun _ => trivial
  | give_start_provisioning_data =>
      exact uses_try ask_apple_quiet fun _ => uses_lift_bind fun _ => uses_try htell fun _ => trivial
  | give_end_provisioning_data cpim =>
      exact uses_try ask_apple_quiet fun _ => uses_lift_bind fun _ => uses_lift_bind fun _ =>
        uses_try htell fun _ => trivial
  | provisioning_success adi_pb =>
      dsimp only [reply_to]
      cases lib.base64_decode adi_pb <;> trivial
  | _ => trivial

theorem send_text_wp {why : GrandSlam.Report} {message : Value}
    (h : Relays vars lib past (.send_text message)) :
    (try_call why (perform (.send_text message))).run.wp (talk vars lib) (OnOk fun _ _ => True)
      past :=
  try_call_wp ⟨h, fun _ _ _ _ _ => trivial⟩

theorem ask_apple_wp {why : String} {url : Str} {cpim : Option Str}
    (hdevice : past.Unprovisioned state) (hdemanded : Demanded lib past url cpim) :
    (ask_apple lib why state url cpim).run.wp (talk vars lib) (OnOk fun response past' =>
      ∃ headers reply, past'.last = some ⟨.plist_request url cpim headers, .ok reply⟩ ∧
        read_response lib.grandslam.plist reply = .ok response) past := by
  refine wp_context_bind fun headers hheaders => ?_
  have hcall : (try_call (GrandSlam.report why ++ GrandSlam.report "Failed to send grandslam request")
      (perform (.plist_request url cpim headers))).run.wp (talk vars lib) (OnOk fun reply past' =>
        past'.last = some ⟨.plist_request url cpim headers, .ok reply⟩) past := by
    refine try_call_wp ⟨⟨state, hdevice, hheaders, hdemanded⟩, ?_⟩
    rintro _ _ rfl reply rfl
    rfl
  refine wp_try hcall fun reply past' hlast => ?_
  cases hread : read_response lib.grandslam.plist reply with
  | error e => trivial
  | ok response => exact ⟨headers, reply, hlast, hread⟩

section Addresses

variable {start_provisioning end_provisioning : Str} {gs : Dictionary}
  (hbag : past.url_bag = some gs)
  (hstart : get_url gs "midStartProvisioning" = .ok start_provisioning)
  (hend : get_url gs "midFinishProvisioning" = .ok end_provisioning)

-- The message that brings data is not answered.
theorem reply_to_brings {msg : ProvisioningMessage} {data : Octets} (h : msg.data lib = some data) :
    reply_to lib state start_provisioning end_provisioning msg = pure (some data) := by
  cases msg with
  | provisioning_success adi_pb =>
      have hdecode : lib.base64_decode adi_pb = some data := h
      simp only [reply_to, hdecode]
  | _ => cases h

include hbag hstart hend

theorem reply_to_wp {msg : ProvisioningMessage} (hdevice : past.Unprovisioned state)
    (hsaid : Said lib past msg) (hdata : msg.data lib = none) :
    (reply_to lib state start_provisioning end_provisioning msg).run.wp (talk vars lib)
      (OnOk fun adi_pb _ => adi_pb = none) past := by
  cases msg with
  | give_identifier =>
      exact wp_try (send_text_wp (.inl ⟨state, hdevice, hsaid, rfl⟩)) fun _ _ _ => rfl
  | give_start_provisioning_data =>
      refine wp_try (ask_apple_wp hdevice ⟨hsaid, gs, hbag, hstart⟩) ?_
      rintro response past' ⟨headers, reply, hlast, hread⟩
      refine wp_context_bind fun spim hspim => ?_
      exact wp_try (send_text_wp (.inr ⟨_, _, headers, reply, response, hlast, hread, spim,
        mapError_eq_ok.mp hspim, rfl⟩)) fun _ _ _ => rfl
  | give_end_provisioning_data cpim =>
      refine wp_try (ask_apple_wp hdevice ⟨hsaid, gs, hbag, hend⟩) ?_
      rintro response past' ⟨headers, reply, hlast, hread⟩
      refine wp_context_bind fun ptm hptm => wp_context_bind fun tk htk => ?_
      exact wp_try (send_text_wp (.inr ⟨_, _, headers, reply, response, hlast, hread, ptm, tk,
        mapError_eq_ok.mp hptm, mapError_eq_ok.mp htk, rfl⟩)) fun _ _ _ => rfl
  | provisioning_success adi_pb =>
      have hdecode : lib.base64_decode adi_pb = none := hdata
      simp only [reply_to, hdecode]
      trivial
  | _ => trivial

-- The device in use is at all times the one that the conversation is had for, with what it brought.
theorem provision_relays (hdevice : past.Unprovisioned state) (fuel : Nat) :
    (provision_loop lib state start_provisioning end_provisioning fuel).wp (talk vars lib)
      (fun r past' => past'.device = some (state.with_data r.1) ∧
        (r.2 = .ok () → r.1.isSome = true)) past := by
  induction fuel generalizing past with
  | zero => exact ⟨hdevice.1, nofun⟩
  | succ fuel ih =>
      refine ⟨⟨state, hdevice⟩, ?_⟩
      rintro r _ rfl
      rcases r with _ | e | text | _
      · exact ih hbag hdevice
      · exact ⟨hdevice.1, nofun⟩
      · have hnext : (past.hear lib ⟨.next, some (.ok (.text text))⟩).device = some (state.with_data
            ((lib.provisioning_message text).bind fun msg => msg.data lib)) :=
          congrArg (Option.map _) hdevice.1
        have hbag : (past.hear lib ⟨.next, some (.ok (.text text))⟩).url_bag = some gs := hbag
        dsimp only [Prog.bind]
        cases hmsg : lib.provisioning_message text with
        | none =>
            rw [hmsg] at hnext
            exact ⟨hnext, nofun⟩
        | some msg =>
            rw [hmsg] at hnext
            dsimp only [Option.bind_some] at hnext ⊢
            cases hdata : msg.data lib with
            | some data =>
                rw [hdata] at hnext
                rw [reply_to_brings hdata]
                refine ⟨trivial, ?_⟩
                rintro closed _ rfl
                exact ⟨hnext, fun _ => rfl⟩
            | none =>
                rw [hdata] at hnext
                refine wp_seq (talk_same (reply_to_quiet msg)
                  (reply_to_wp hbag hstart hend ⟨hnext, hdevice.2⟩ ⟨text, rfl, hmsg⟩ hdata)) ?_
                rintro (e | _) past' ⟨hreplied, hsame⟩
                · exact ⟨hsame.2.trans hnext, nofun⟩
                · obtain rfl := hreplied
                  exact ih (hsame.1.trans hbag) ⟨hsame.2.trans hnext, hdevice.2⟩
      · exact ⟨hdevice.1, nofun⟩

end Addresses

end Conversation

section Provider

variable {vars : Str → Option Str} {lib : Libs} {past past' : Past} {state : AnisetteState}

-- The provider asks the server that was set, and what it keeps is the device in use.
structure Holds (vars : Str → Option Str) (past : Past) (p : Provider) : Prop where
  server : anisette_server vars = .ok p.url
  device : ∀ state ∈ p.state, past.device = some state

theorem Holds.of_same {p : Provider} (h : Holds vars past p) (hsame : past.Same past') :
    Holds vars past' p := ⟨h.server, fun state hstate => hsame.2.trans (h.device state hstate)⟩

theorem Holds.with_state {p : Provider} (h : Holds vars past p) (hdevice : past'.device = some state) :
    Holds vars past' { p with state := some state } := by
  refine ⟨h.server, ?_⟩
  rintro _ ⟨⟩
  exact hdevice

theorem provision_holds {gs : Dictionary} {url : Str} (hdevice : past.Unprovisioned state)
    (hbag : past.url_bag = some gs) (hserver : anisette_server vars = .ok url) (fuel : Nat) :
    (provision lib fuel state gs url).wp (talk vars lib) (fun r past' =>
      past'.device = some (state.with_data r.1) ∧ (r.2 = .ok () → r.1.isSome = true)) past := by
  unfold provision
  split
  · exact ⟨hdevice.1, nofun⟩
  · rename_i hurls
    obtain ⟨start_provisioning, hstart, hurls⟩ := bind_eq_ok.mp hurls
    obtain ⟨end_provisioning, hend, hurls⟩ := bind_eq_ok.mp hurls
    cases hurls
    refine ⟨⟨url, state, hserver, rfl, hdevice⟩, ?_⟩
    rintro (e | ⟨⟨⟩⟩) _ rfl
    · exact ⟨hdevice.1, nofun⟩
    · have hopened : (past.hear lib ⟨.connect (websocket_url url), .ok ()⟩).Unprovisioned state :=
        hdevice
      have hbag : (past.hear lib ⟨.connect (websocket_url url), .ok ()⟩).url_bag = some gs := hbag
      exact provision_relays hbag hstart hend hopened fuel

theorem load_state_holds {p : Provider} (hp : Holds vars past p) :
    (load_state lib p).run.wp (talk vars lib) (fun r past' => past'.url_bag = past.url_bag ∧
      match r with
      | .error _ => p.state = none
      | .ok state => past'.device = some state) past := by
  unfold load_state
  cases hstate : p.state with
  | some state => exact ⟨rfl, hp.device state hstate⟩
  | none =>
      refine ⟨trivial, ?_⟩
      rintro (e | data) _ rfl
      · refine ⟨rfl, ?_⟩
        rintro _ _ rfl
        exact ⟨rfl, rfl⟩
      · have hread : (past.hear lib ⟨.read_state, .ok data⟩).device = device_of lib data := rfl
        dsimp only [Prog.bind, Function.comp_apply, ExceptT.bindCont]
        cases hbytes : lib.from_bytes data with
        | none =>
            rw [device_of, hbytes] at hread
            refine ⟨hread, ?_⟩
            rintro _ _ rfl
            exact ⟨rfl, rfl⟩
        | some stored =>
            obtain ⟨identifier, adi_pb⟩ := stored
            rw [device_of, hbytes] at hread
            dsimp only at hread ⊢
            split
            · rename_i hlength
              rw [dif_pos hlength] at hread
              exact ⟨rfl, hread⟩
            · exact ⟨rfl, rfl⟩

theorem store_state_quiet : (store_state lib state).run.Uses fun c => c.quiet = true := by
  refine uses_lift_bind fun data => uses_try (try_call_uses ⟨rfl, fun _ => trivial⟩) fun _ => ?_
  exact try_call_uses ⟨rfl, fun _ => trivial⟩

theorem store_state_relays (hdevice : past.device = some state)
    (hprovisioned : state.is_provisioned = true) :
    (store_state lib state).run.wp (talk vars lib) (OnOk fun _ _ => True) past := by
  refine wp_context_bind fun data hdata => ?_
  have hdir : (try_call (GrandSlam.report "Failed to create storage directory")
      (perform (.create_dir_all STATE_DIR) >>= fun r => .ret (r.mapError fun e => [.text e]))).run.wp
      (talk vars lib) (OnOk fun _ past' => past'.device = some state) past := by
    refine try_call_wp ⟨trivial, ?_⟩
    rintro r _ rfl _ -
    exact hdevice
  refine wp_try hdir fun _ past' hdevice => ?_
  exact try_call_wp ⟨⟨state, hdevice, hprovisioned, hdata⟩, fun _ _ _ _ _ => trivial⟩

theorem get_state_holds {p : Provider} {gs : Dictionary} (hp : Holds vars past p)
    (hbag : past.url_bag = some gs) (fuel : Nat) :
    (get_state lib fuel p gs).wp (talk vars lib) (fun r past' => Holds vars past' r.2) past := by
  have hstored {state : AnisetteState} {past : Past} (hdevice : past.device = some state)
      (hprovisioned : state.is_provisioned = true) : (store_state lib state).run.wp (talk vars lib)
        (fun _ past' => past'.device = some state) past :=
    wp_mono (talk_same store_state_quiet (store_state_relays hdevice hprovisioned))
      fun _ _ h => h.2.2.trans hdevice
  refine wp_seq (load_state_holds hp) ?_
  rintro (e | state) loaded ⟨hsame, hdevice⟩
  · refine ⟨hp.server, fun state hstate => ?_⟩
    rw [show p.state = none from hdevice] at hstate
    cases hstate
  dsimp only
  split
  · rename_i hprovisioned
    exact wp_seq (hstored hdevice hprovisioned) fun _ _ hdevice => hp.with_state hdevice
  · rename_i hnot
    have hdevice : loaded.Unprovisioned state := ⟨hdevice, eq_false_of_ne_true hnot⟩
    refine wp_seq (provision_holds hdevice (hsame.trans hbag) hp.server fuel) ?_
    rintro ⟨adi_pb, ended⟩ talked ⟨hdevice, hends⟩
    cases ended with
    | error e => cases adi_pb <;> exact hp.with_state hdevice
    | ok _ =>
        cases adi_pb with
        | none => cases hends rfl
        | some data => exact wp_seq (hstored hdevice rfl) fun _ _ hdevice => hp.with_state hdevice

theorem provider_data_quiet {p : Provider} :
    (p.get_anisette_data lib).run.Uses fun c => c.quiet = true := by
  unfold Provider.get_anisette_data
  cases p.state.bind fun state => state.adi_pb.map (state, ·) with
  | none => trivial
  | some found =>
      refine uses_try (try_call_uses ⟨rfl, fun _ => trivial⟩) fun r => ?_
      refine uses_lift_bind fun r => uses_lift_bind fun text => ?_
      cases lib.anisette_headers text with
      | none => trivial
      | some headers =>
          cases headers with
          | get_headers_error message => trivial
          | headers machine_id one_time_password routing_info => exact ⟨rfl, fun _ => trivial⟩

theorem provider_data_relays {p : Provider} (hp : Holds vars past p) :
    (p.get_anisette_data lib).run.wp (talk vars lib) (OnOk fun _ _ => True) past := by
  unfold Provider.get_anisette_data
  cases hstate : p.state with
  | none => trivial
  | some state =>
      cases hadi : state.adi_pb with
      | none =>
          rw [Option.bind_some, hadi]
          trivial
      | some adi_pb =>
          rw [Option.bind_some, hadi]
          have hasked : (try_call [] (perform (.get_headers (p.url ++ "/v3/get_headers".toList)
              (.object [("adi_pb".toList, .string (Base64.encode adi_pb)),
                ("identifier".toList, .string (Base64.encode state.keychain_identifier.1))])))).run.wp
              (talk vars lib) (OnOk fun _ _ => True) past :=
            try_call_wp ⟨⟨p.url, state, adi_pb, hp.server, rfl, hp.device state hstate, hadi, rfl⟩,
              fun _ _ _ _ _ => trivial⟩
          refine wp_try hasked fun r past' _ => ?_
          refine wp_context_bind fun r _ => wp_context_bind fun text _ => ?_
          cases lib.anisette_headers text with
          | none => trivial
          | some headers =>
              cases headers with
              | get_headers_error message => trivial
              | headers machine_id one_time_password routing_info =>
                  exact ⟨trivial, fun _ _ _ => trivial⟩

variable {gs : Dictionary} (hbag : past.url_bag = some gs)

include hbag

theorem fresh_data_holds {g : Generator} (hg : Holds vars past g.provider) (fuel : Nat) :
    (fresh_data lib fuel g gs).wp (talk vars lib) (fun r past' => Holds vars past' r.2.provider)
      past := by
  have hready : (provisioned lib fuel g.provider gs).wp (talk vars lib)
      (fun r past' => Holds vars past' r.2) past := by
    unfold provisioned
    split
    · exact get_state_holds hg hbag fuel
    · exact hg
  refine wp_seq hready ?_
  rintro ⟨ready, provider⟩ past' hprovider
  cases ready with
  | error e => exact hprovider
  | ok _ =>
      refine wp_seq (talk_same provider_data_quiet (provider_data_relays hprovider)) ?_
      rintro (e | a) asked ⟨-, hsame⟩ <;> exact hprovider.of_same hsame

theorem get_anisette_data_holds {g : Generator} (hg : Holds vars past g.provider) (fuel : Nat) :
    (get_anisette_data lib fuel g gs).wp (talk vars lib)
      (fun r past' => Holds vars past' r.2.provider) past := by
  unfold get_anisette_data
  cases g.data with
  | none => exact fresh_data_holds hbag hg fuel
  | some data =>
      have hclock : (needs_refresh data).wp (talk vars lib) (fun _ past' => past.Same past') past := by
        refine ⟨trivial, ?_⟩
        rintro now _ rfl
        exact ⟨rfl, rfl⟩
      refine wp_seq hclock ?_
      rintro refresh past' hsame
      split
      · exact fresh_data_holds (hsame.1.trans hbag) (hg.of_same hsame) fuel
      · exact hg.of_same hsame

end Provider

section Sessions

variable (vars : Str → Option Str) (lib : Libs)

-- The same, of a program that also signs in.
def relaying : Prog.Protocol (Both GrandSlam.Answer Answer) Past where
  allows past c :=
    match c with
    | .inl _ => True
    | .inr c => Relays vars lib past c
  step past c r past' := past' = past.after lib ⟨c, r⟩

variable {vars lib} {fuel : Nat} {past : Past}

theorem inner_relays {α : Type} {p : Prog Answer α} {post : α → Past → Prop}
    (hp : p.wp (talk vars lib) post past) :
    (inner p).wp (relaying vars lib) (fun a past' => post a past' ∧ past'.url_bag = past.url_bag)
      past := by
  have hkeep : ∀ (past' : Past) (c : Call) (r : Answer c) (past'' : Past),
      past'.url_bag = past.url_bag → (talk vars lib).allows past' c →
      (talk vars lib).step past' c r past'' → past''.url_bag = past.url_bag := by
    rintro past' c r _ hsame - rfl
    exact hsame
  exact wp_inner (Q := talk vars lib) (fun _ _ h => h) (fun _ _ _ _ h => h)
    (Prog.wp_and_keep hkeep hp rfl)

theorem after_outer (past : Past) (c : GrandSlam.Call) (r : GrandSlam.Answer c) :
    (bagged lib.grandslam.plist).step past.url_bag c r (past.after lib ⟨.inl c, r⟩).url_bag ∧
      (past.after lib ⟨.inl c, r⟩).device = past.device := by
  cases c with
  | send req => cases req <;> exact ⟨rfl, rfl⟩
  | _ => exact ⟨rfl, rfl⟩

theorem outer_relays {α : Type} {p : Prog GrandSlam.Answer α} {post : α → Option Dictionary → Prop}
    (hp : p.wp (bagged lib.grandslam.plist) post past.url_bag) :
    (outer p).wp (relaying vars lib) (fun a past' => post a past'.url_bag) past := by
  have himpl : ∀ url_bag (past : Past) (c : GrandSlam.Call), past.url_bag = url_bag →
      (bagged lib.grandslam.plist).allows url_bag c →
      (Prog.perform (Sum.inl c) : Outside _).wp (relaying vars lib) (fun r past' => ∃ url_bag',
        (bagged lib.grandslam.plist).step url_bag c r url_bag' ∧ past'.url_bag = url_bag') past := by
    rintro _ past c rfl -
    refine ⟨trivial, ?_⟩
    rintro r _ rfl
    exact ⟨_, (after_outer past c r).1, rfl⟩
  refine wp_mono (Prog.wp_expand himpl hp rfl) ?_
  rintro a past' ⟨_, ha, rfl⟩
  exact ha

theorem anisette_provider_holds :
    (anisette_provider vars).wp (talk vars lib)
      (fun r past' => ∀ p, r = .ok p → Holds vars past' p ∧ p.state = none) past := by
  refine ⟨trivial, ?_⟩
  rintro (e | ⟨⟨⟩⟩) _ rfl
  · exact nofun
  refine ⟨trivial, ?_⟩
  rintro (e | ⟨⟨⟩⟩) _ rfl
  · exact nofun
  dsimp only [Prog.bind]
  cases hurl : anisette_url (Env.var vars "ANISETTE_URL") with
  | error e => exact nofun
  | ok url =>
      rintro _ ⟨⟩
      refine ⟨⟨?_, nofun⟩, rfl⟩
      rw [anisette_server, hurl]
      rfl

theorem serve_holds {g : Generator} (hg : Holds vars past g.provider) {c : GrandSlam.Call}
    (hc : (bagged lib.grandslam.plist).allows past.url_bag c) :
    (serve lib fuel g c).wp (relaying vars lib) (fun r past' =>
      (bagged lib.grandslam.plist).step past.url_bag c r.1 past'.url_bag ∧
        Holds vars past' r.2.provider) past := by
  have hother (c : GrandSlam.Call) : (Prog.call (Sum.inl c) fun r => .ret (r, g) : Outside _).wp
      (relaying vars lib) (fun r past' => (bagged lib.grandslam.plist).step past.url_bag c r.1
        past'.url_bag ∧ Holds vars past' r.2.provider) past := by
    refine ⟨trivial, ?_⟩
    rintro r _ rfl
    obtain ⟨hstep, hdevice⟩ := after_outer past c r
    exact ⟨hstep, hg.server, fun state hstate => hdevice.trans (hg.device state hstate)⟩
  cases c with
  | get_anisette_data gs =>
      refine wp_seq (inner_relays (get_anisette_data_holds hc hg fuel)) ?_
      rintro r past' ⟨hprovider, hbag⟩
      exact ⟨hbag, hprovider⟩
  | _ => exact hother _

theorem session_bagged (apple_id password : Str) (errands : List Errand)
    (url_bag : Option Dictionary) :
    (session lib apple_id password errands).run.wp (bagged lib.grandslam.plist) (fun _ _ => True)
      url_bag := by
  have herrands : ∀ (sess : Developer.DeveloperSession) (errands : List Errand),
      Bagged lib.grandslam.plist sess.url_bag (run_errands lib sess errands) fun _ => True := by
    intro sess errands
    induction errands with
    | nil => exact ⟨rfl, trivial⟩
    | cons errand errands ih =>
        cases errand with
        | list_teams => exact Bagged.bind GrandSlam.list_teams_bagged fun _ _ => ih
        | list_app_ids team device_type =>
            exact Bagged.bind (GrandSlam.list_app_ids_bagged team device_type) fun _ _ => ih
        | download team app device_type =>
            exact Bagged.bind (GrandSlam.download_bagged team app device_type) fun _ _ => ih
  have hsession : (session lib apple_id password errands).run.wp (bagged lib.grandslam.plist)
      (OnOk fun _ _ => True) url_bag := by
    refine wp_try (GrandSlam.login_bagged apple_id password url_bag) ?_
    rintro acct _ rfl
    refine wp_try (GrandSlam.from_account_bagged acct) ?_
    rintro sess _ ⟨rfl, hsess⟩
    rw [← hsess]
    refine wp_mono (herrands sess errands) ?_
    rintro (e | _) _ _ <;> trivial
  exact wp_mono hsession fun _ _ _ => trivial

theorem run_session_relays (apple_id password : Str) (errands : List Errand) :
    (run_session vars lib fuel apple_id password errands).wp (relaying vars lib) (fun _ _ => True)
      past := by
  refine wp_seq (inner_relays anisette_provider_holds) ?_
  rintro (e | provider) past' ⟨hprovider, -⟩
  · trivial
  have hserve : ∀ url_bag (g : Generator) (past : Past) (c : GrandSlam.Call),
      past.url_bag = url_bag ∧ Holds vars past g.provider →
      (bagged lib.grandslam.plist).allows url_bag c →
      (serve lib fuel g c).wp (relaying vars lib) (fun r past' => ∃ url_bag',
        (bagged lib.grandslam.plist).step url_bag c r.1 url_bag' ∧
          past'.url_bag = url_bag' ∧ Holds vars past' r.2.provider) past := by
    rintro _ g past c ⟨rfl, hg⟩ hc
    exact wp_mono (serve_holds hg hc) fun _ _ h => ⟨_, h.1, rfl, h.2⟩
  have hholds : Holds vars past' (Generator.provider { provider }) := (hprovider provider rfl).1
  exact wp_seq (wp_expand_with hserve (session_bagged apple_id password errands past'.url_bag)
    ⟨rfl, hholds⟩) fun _ _ _ => trivial

theorem altstore_relays :
    (anisette_for_altstore vars lib fuel).wp (relaying vars lib) (fun _ _ => True) past := by
  refine wp_seq (inner_relays anisette_provider_holds) ?_
  rintro (e | provider) past' ⟨hprovider, -⟩
  · trivial
  obtain ⟨hholds, hnone⟩ := hprovider provider rfl
  refine wp_seq (outer_relays (GrandSlam.fetch_url_bag_told past'.url_bag)) ?_
  rintro (e | gs) fetched hbag
  · trivial
  have hholds : Holds vars fetched (Generator.provider { provider }) :=
    ⟨hholds.server, fun state hstate => by rw [hnone] at hstate; cases hstate⟩
  refine wp_seq (inner_relays (get_anisette_data_holds hbag hholds fuel)) ?_
  rintro ⟨e | data, g⟩ past'' -
  · cases e <;> trivial
  · have hclock : (perform .now).wp (talk vars lib) (fun _ _ => True) past'' :=
      ⟨trivial, fun _ _ _ => trivial⟩
    refine wp_seq (inner_relays hclock) fun now _ _ => ?_
    cases Apple.iso8601_utc (epoch_secs now) <;> trivial

theorem sessions_relays (list : List Session) :
    (sessions vars lib fuel list).wp (relaying vars lib) (fun _ _ => True) past := by
  induction list generalizing past with
  | nil => trivial
  | cons s list ih =>
      cases s with
      | apple apple_id password errands =>
          exact wp_seq (run_session_relays apple_id password errands) fun _ _ _ => ih
      | anisette_for_altstore =>
          exact wp_seq altstore_relays fun _ _ _ => wp_seq ih fun _ _ _ => trivial

-- However many sessions are opened, and whatever is answered: a conversation is had with the server
-- that was set, and only for the device in use, which is not provisioned. The server is told, each
-- time it asks, that device's identifier, or what Apple has just answered, at the address that the
-- service gave last for what the server asked. And it is the device in use, with what the server
-- ended the conversation with, that is stored and shown to it later.
theorem provisioning_relayed {list : List Session}
    {before after : Prog.Trace (Both GrandSlam.Answer Answer)} {c : Call} {r : Answer c}
    {given : List Value}
    (h : (sessions vars lib fuel list).Runs (before ++ ⟨.inr c, r⟩ :: after) given) :
    Relays vars lib (before.foldl (Past.after lib) {}) c :=
  Prog.wp_allows (P := relaying vars lib) (fun _ _ => rfl) (sessions_relays list) h

end Sessions

section Sample

def relay_nodes : List (Octets × Dictionary) := [
  (Utf8.encode "urls".toList, [("urls".toList, .dictionary [
    ("midStartProvisioning".toList, .string "s".toList),
    ("midFinishProvisioning".toList, .string "f".toList)])]),
  (Utf8.encode "keys".toList, [("Response".toList, .dictionary [("spim".toList, .string "1".toList),
    ("ptm".toList, .string "2".toList), ("tk".toList, .string "3".toList)])])]

def relay_libs : Libs :=
  { sample_libs with
    grandslam := { GrandSlam.sample_libs with plist := fun bytes => relay_nodes.lookup bytes }
    provisioning_message := fun text =>
      if text = "start".toList then some .give_start_provisioning_data
      else if text = "end".toList then some (.give_end_provisioning_data "4".toList)
      else some (.provisioning_success "AQ==".toList)
    base64_decode := fun _ => some [1] }

-- No device is on the disk, and the server asks for one thing after the other.
def relay_outside (said : Nat) : (c : GrandSlam.Call ⊕ Call) → Both GrandSlam.Answer Answer c × Nat
  | .inl c => ((GrandSlam.sample_answer true c).1, said)
  | .inr (.create_dir_all _) => (.ok (), said)
  | .inr (.set_permissions _ _) => (.ok (), said)
  | .inr .read_state => (.error .not_found, said)
  | .inr (.write_state _) => (.ok (), said)
  | .inr .random => (sample_state.keychain_identifier, said)
  | .inr .now => ((0 : Int), said)
  | .inr (.connect _) => (.ok (), said)
  | .inr .next =>
      (some (.ok (.text (["start".toList, "end".toList].getD said "done".toList))), said + 1)
  | .inr (.send_text _) => (.ok (), said)
  | .inr .close => (.ok (), said)
  | .inr (.plist_request _ _ _) => (.ok ⟨200, .ok "keys".toList⟩, said)
  | .inr (.get_headers _ _) => (.ok ⟨200, .ok []⟩, said)

def relayed_session : Prog.Trace (Both GrandSlam.Answer Answer) × List Value :=
  (sessions (fun _ => none) relay_libs 3 [.anisette_for_altstore]).exec relay_outside 0

def finishes : GrandSlam.Call ⊕ Call → Bool
  | .inr (.plist_request url (some cpim) _) => url = "f".toList && cpim = "4".toList
  | _ => false

-- The end is asked for at its own address, with what the server gave.
theorem provisioning_relayed_finish : ∃ before headers r after given,
    (sessions (fun _ => none) relay_libs 3 [.anisette_for_altstore]).Runs
      (before ++ ⟨.inr (.plist_request "f".toList (some "4".toList) headers), r⟩ :: after) given ∧
      Relays (fun _ => none) relay_libs (before.foldl (Past.after relay_libs) {})
        (.plist_request "f".toList (some "4".toList) headers) := by
  have hasked : relayed_session.1.any (fun e => finishes e.1) = true := by decide +kernel
  obtain ⟨before, c, r, after, hfinishes, hrun⟩ := Prog.exec_event relay_outside _ _ hasked
  obtain ⟨headers, rfl⟩ :
      ∃ headers, c = .inr (.plist_request "f".toList (some "4".toList) headers) := by
    cases c with
    | inl c => cases hfinishes
    | inr c =>
        cases c with
        | plist_request url cpim headers =>
            cases cpim with
            | none => cases hfinishes
            | some cpim =>
                simp only [finishes, Bool.and_eq_true, decide_eq_true_eq] at hfinishes
                obtain ⟨rfl, rfl⟩ := hfinishes
                exact ⟨headers, rfl⟩
        | _ => cases hfinishes
  exact ⟨before, headers, r, after, _, hrun, provisioning_relayed hrun⟩

end Sample

end AltKeeper.Anisette
