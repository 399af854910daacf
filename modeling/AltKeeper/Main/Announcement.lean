import AltKeeper.Main.Checks
import AltKeeper.Text.Lines

-- What the program tells others of AltServer, by Bonjour and by its DNS server, over any number of
-- starts.
namespace AltKeeper.Main

open Dnssd (Zone)
open Prog (Both OnOk inner outer wp_adapt wp_context_bind wp_inner wp_mono wp_outer wp_pure_ok wp_seq
  wp_throw wp_try wp_until)

section Server

-- The file with the id, in the directory that all processes work in; what the one that runs listens
-- at, and announced; and the id under which AltServer was ever announced.
structure Server where
  file : Option Str
  listening : Option UInt16 := none
  fullname : Option ServiceInfo := none
  registered : Option ServiceInfo := none
  known : Option Str := none

def Server.id (s : Server) : Option Str := s.file.bind AltServer.stored_id

-- What is announced is the port that AltServer has and the id on the disk, the one it always had; the
-- DNS server says what was announced; an id is never overwritten.
def Call.Agrees (s : Server) : Call → Prop
  | .write_server_id _ => s.id = none
  | .register info => s.listening = some info.port ∧ s.id = some info.server_id ∧
      ∀ id ∈ s.known, info.server_id = id
  | .accept _ => ∃ info, s.registered = some info ∧ s.listening = some info.port
  | .answer_queries zone => ∃ info, s.registered = some info ∧ s.listening = some info.port ∧
      zone.port = info.port ∧ zone.server_id = info.server_id
  | .unregister info => s.registered = some info
  | _ => True

-- A file that could not be written may hold anything.
def server : Prog.Protocol Answer Server where
  allows s c := c.Agrees s
  step s c r s' :=
    match c, r with
    | .read_server_id, r => r = s.file ∧ s' = s
    | .write_server_id id, r => ∃ file, (r = .ok () → file = some id) ∧ s' = { s with file }
    | .altserver_port, r => s' = { s with listening := r.toOption }
    | .set_fullname info, _ => s' = { s with fullname := some info }
    | .get_fullname, r => r = s.fullname ∧ s' = s
    | .register info, r => s' = match r with
        | .ok () => { s with registered := some info, known := some info.server_id }
        | .error _ => s
    | _, _ => s' = s

-- The start of a process, with its arguments and the variables it sees.
inductive Exec where
  | exec (line : List Str) (vars : Str → Option Str)

abbrev Machine := Prog (Both (fun (_ : Exec) => Unit) (Both Answer Resp))

-- One process after another.
def starts (ext : Ext) : List (List Str × (Str → Option Str)) → Machine Unit
  | [] => return ()
  | (line, vars) :: rest => do
      outer (Prog.perform (.exec line vars))
      let _ ← inner (main ext vars line)
      starts ext rest

def process : Prog.Protocol (Both Answer Resp) Server where
  allows s c :=
    match c with
    | .inl c => c.Agrees s
    | .inr _ => True
  step s c r s' :=
    match c, r with
    | .inl c, r => server.step s c r s'
    | .inr _, _ => s' = s

def machine : Prog.Protocol (Both (fun (_ : Exec) => Unit) (Both Answer Resp)) Server where
  allows s c :=
    match c with
    | .inl _ => True
    | .inr c => process.allows s c
  step s c r s' :=
    match c, r with
    | .inl _, _ => s' = { s with listening := none, fullname := none, registered := none }
    | .inr c, r => process.step s c r s'

-- The id that was announced is still on the disk.
def Server.Holds (s : Server) : Prop := ∀ id ∈ s.known, s.id = some id

theorem holds_step {s s' : Server} {c : Call} {r : Answer c} (hs : s.Holds) (hc : c.Agrees s)
    (h : server.step s c r s') : s'.Holds := by
  cases c with
  | write_server_id id =>
      obtain ⟨file, -, rfl⟩ := h
      intro id' hid'
      exact absurd ((hs id' hid').symm.trans hc) nofun
  | register info =>
      obtain rfl : s' = _ := h
      cases r with
      | error e => exact hs
      | ok _ =>
          rintro id hid
          cases hid
          exact hc.2.1
  | altserver_port =>
      obtain rfl : s' = _ := h
      exact hs
  | set_fullname info =>
      obtain rfl : s' = _ := h
      exact hs
  | read_server_id => exact h.2 ▸ hs
  | get_fullname => exact h.2 ▸ hs
  | _ =>
      obtain rfl : s' = s := h
      exact hs

end Server

section Start

variable {s : Server} {α β : Type} {post : β → Server → Prop}

theorem perform_wp {c : Call} {f : Answer c → Start β} (hc : c.Agrees s)
    (hf : ∀ r s', server.step s c r s' → (f r).run.wp server (OnOk post) s') :
    (perform c >>= f).run.wp server (OnOk post) s :=
  wp_try (x := perform c) (m := fun r s' => server.step s c r s') ⟨hc, fun _ _ h => h⟩ hf

-- A call that leaves everything as it is.
theorem perform_quiet {c : Call} {f : Answer c → Start β} (hc : c.Agrees s)
    (hquiet : ∀ r s', server.step s c r s' → s' = s) (hf : ∀ r, (f r).run.wp server (OnOk post) s) :
    (perform c >>= f).run.wp server (OnOk post) s := by
  refine perform_wp hc fun r s' h => ?_
  rw [hquiet r s' h]
  exact hf r

theorem try_call_wp {x : Prog Answer (Except Str α)} {why : Str} {f : α → Start β}
    (hx : x.wp server (OnOk fun a s' => (f a).run.wp server (OnOk post) s') s) :
    (try_call why x >>= f).run.wp server (OnOk post) s := by
  refine wp_try (x := try_call why x) (m := fun a s' => (f a).run.wp server (OnOk post) s') ?_
    fun _ _ h => h
  refine wp_seq hx ?_
  rintro (e | a) s' h
  · trivial
  · exact h

theorem try_call_quiet {x : Prog Answer (Except Str α)} {why : Str} {f : α → Start β}
    (hx : x.wp server (fun _ s' => s' = s) s) (hf : ∀ a, (f a).run.wp server (OnOk post) s) :
    (try_call why x >>= f).run.wp server (OnOk post) s := by
  refine try_call_wp (Prog.wp_mono hx ?_)
  rintro (e | a) s' h
  · trivial
  · rw [h]
    exact hf a

theorem attempt_wp {x : Except Str α} {f : α → Start β}
    (hf : ∀ a, x = .ok a → (f a).run.wp server (OnOk post) s) :
    (attempt x >>= f).run.wp server (OnOk post) s :=
  wp_context_bind hf

-- A new id is read again as it was written.
theorem stored_id_hex {bytes : Octets} (h : bytes.length = 16) :
    AltServer.stored_id (bytes.flatMap AltServer.hex_byte) = some (bytes.flatMap AltServer.hex_byte) := by
  have hdigit : ∀ n < 16, Str.is_whitespace (Nat.digitChar n) = false := by decide
  have htrim : Str.trim (bytes.flatMap AltServer.hex_byte) = bytes.flatMap AltServer.hex_byte := by
    refine Str.trim_eq_self fun c hc => ?_
    obtain ⟨b, -, hb⟩ := List.mem_flatMap.mp hc
    simp only [AltServer.hex_byte, List.mem_cons, List.not_mem_nil, or_false] at hb
    have hlt := b.toNat_lt
    rcases hb with rfl | rfl
    · exact hdigit _ (by omega)
    · exact hdigit _ (by omega)
  have hlen := Utf8.length_le_encode (bytes.flatMap AltServer.hex_byte)
  rw [AltServer.length_hex, h] at hlen
  rw [AltServer.stored_id, htrim, if_pos]
  exact hlen.trans' (by decide)

-- The id that is given is the one on the disk from then on; nothing else has changed.
theorem server_id_wp (hs : s.Holds) : server_id.run.wp server
    (OnOk fun id s' => s'.id = some id ∧ s'.Holds ∧ ∃ file, s' = { s with file }) s := by
  refine perform_wp trivial ?_
  rintro _ s' ⟨rfl, hsame⟩
  rw [hsame]
  cases hid : s.file.bind AltServer.stored_id with
  | some id => exact ⟨hid, hs, s.file, rfl⟩
  | none =>
      have hnew : s.known = none := by
        cases hknown : s.known with
        | none => rfl
        | some id => exact absurd ((hs id hknown).symm.trans hid) nofun
      refine try_call_quiet ⟨trivial, fun _ _ h => h⟩ fun bytes => ?_
      refine perform_quiet trivial (fun _ _ h => h) fun _ => ?_
      refine try_call_wp ⟨hid, ?_⟩
      rintro (e | _) _ ⟨file, hwritten, rfl⟩
      · trivial
      obtain rfl := hwritten rfl
      refine ⟨stored_id_hex bytes.2, fun id h => ?_, _, rfl⟩
      rw [hnew] at h
      cases h

-- An id that is on the disk is given as it is.
theorem server_id_wp_of_known {id : Str} (hid : s.id = some id) :
    server_id.run.wp server (OnOk fun id' s' => id' = id ∧ s' = s) s := by
  refine perform_wp trivial ?_
  rintro _ s' ⟨rfl, hsame⟩
  rw [hsame, show s.file.bind AltServer.stored_id = some id from hid]
  exact ⟨rfl, rfl⟩

-- AltServer listens at this port, and is announced with it.
structure Announced (port : UInt16) (info : ServiceInfo) (s : Server) : Prop where
  listening : s.listening = some port
  fullname : s.fullname = some info
  registered : s.registered = some info
  port : info.port = port
  id : s.id = some info.server_id

theorem short_wp {id : Str} {f : Str → Start β}
    (hf : ∀ short, (f short).run.wp server (OnOk post) s) :
    (short id >>= f).run.wp server (OnOk post) s := by
  unfold short
  cases id.slice_to 8 with
  | none => trivial
  | some short => exact hf short

theorem register_bonjour_wp {port : UInt16} {id : Str} (hs : s.Holds) (hport : s.listening = some port)
    (hid : s.id = some id) :
    (register_bonjour port id).run.wp server (OnOk fun _ s' => ∃ info, Announced port info s') s := by
  refine perform_quiet trivial (fun _ _ h => h) fun mdns => ?_
  cases mdns with
  | false => trivial
  | true =>
      refine perform_quiet trivial (fun _ _ h => h) fun stdout => ?_
      refine short_wp fun short => ?_
      refine try_call_quiet ⟨trivial, fun _ _ h => h⟩ fun _ => ?_
      refine perform_wp trivial ?_
      rintro _ _ rfl
      refine wp_seq ⟨⟨hport, hid, fun known h => ?_⟩, fun _ _ h => h⟩ ?_
      · exact Option.some.inj (hid.symm.trans (hs known h))
      · rintro (e | _) _ rfl
        · trivial
        · exact ⟨_, hport, rfl, rfl, rfl, hid⟩

theorem start_wp (hs : s.Holds) (port : UInt16) (phone : Option SocketAddr) :
    (start port phone).run.wp server (OnOk fun port s' => ∃ info, Announced port info s') s := by
  refine try_call_quiet ⟨trivial, fun _ _ h => h⟩ fun _ => ?_
  refine try_call_wp ⟨trivial, ?_⟩
  rintro (e | port) _ rfl
  · trivial
  refine wp_try (server_id_wp hs) ?_
  rintro id _ ⟨hid, hs', file, rfl⟩
  refine wp_try (register_bonjour_wp hs' rfl hid) ?_
  rintro _ s' ⟨info, hannounced⟩
  refine short_wp fun short => ?_
  refine perform_quiet trivial (fun _ _ h => h) fun _ => ?_
  refine perform_quiet ⟨info, hannounced.registered, ?_⟩ (fun _ _ h => h) fun _ => ⟨info, hannounced⟩
  rw [hannounced.port]
  exact hannounced.listening

theorem zone_new {domain inst id : Str} {port : UInt16} {address : Dnssd.Ipv4Addr}
    {clients : Dnssd.Ipv4Addr × UInt8} {zone : Zone}
    (h : Zone.new domain inst id port address clients = some zone) :
    zone.port = port ∧ zone.server_id = id := by
  obtain ⟨short, -, hzone⟩ := Option.bind_eq_some_iff.mp h
  cases hzone
  exact ⟨rfl, rfl⟩

theorem start_dnssd_wp {opt : Str → Option Str} {port : UInt16} {info : ServiceInfo}
    (hannounced : Announced port info s) :
    (start_dnssd opt port).run.wp server (OnOk fun _ s' => s' = s) s := by
  unfold start_dnssd
  cases opt "--dns-domain".toList with
  | none => exact rfl
  | some domain =>
      refine attempt_wp fun options _ => ?_
      refine perform_quiet trivial (fun _ _ h => h) fun stdout => ?_
      refine wp_try (server_id_wp_of_known hannounced.id) ?_
      rintro _ s' ⟨rfl, hsame⟩
      rw [hsame]
      cases hnew : Zone.new domain (AltServer.instance_name stdout) info.server_id port options.1
          options.2.2 with
      | none => trivial
      | some zone =>
          obtain ⟨hport, hid⟩ := zone_new hnew
          refine try_call_quiet ⟨trivial, fun _ _ h => h⟩ fun _ => ?_
          refine try_call_quiet ⟨trivial, fun _ _ h => h⟩ fun _ => ?_
          refine perform_quiet trivial (fun _ _ h => h) fun _ => ?_
          refine ⟨⟨info, hannounced.registered, ?_, ?_, hid⟩, fun _ _ h => h⟩
          · rw [hannounced.port]
            exact hannounced.listening
          · rw [hannounced.port, hport]

theorem stop_wp {port : UInt16} {info : ServiceInfo} (hannounced : Announced port info s) :
    stop.run.wp server (OnOk fun _ _ => True) s := by
  refine perform_quiet trivial (fun _ _ h => h) fun mdns => ?_
  cases mdns with
  | false => trivial
  | true =>
      refine perform_wp trivial ?_
      rintro _ s' ⟨rfl, hsame⟩
      rw [hsame, hannounced.fullname]
      refine perform_quiet hannounced.registered (fun _ _ h => h) fun _ => ?_
      exact ⟨trivial, fun _ _ _ => trivial⟩

end Start

section Processes

variable {s : Server} {ext : Ext} {vars : Str → Option Str} {args : List Str}

theorem change_dir_wp : (change_dir args).run.wp server (OnOk fun _ s' => s' = s) s := by
  unfold change_dir
  cases opt args "--dir".toList with
  | none => exact rfl
  | some dir =>
      refine wp_seq ⟨trivial, fun _ _ h => h⟩ ?_
      rintro (e | _) _ rfl
      · trivial
      · exact rfl

theorem serve_wp {bind : SocketAddr} {pin : Option Str} {phone : Option SocketAddr} :
    (serve ext bind pin phone).run.wp server (OnOk fun _ _ => True) s := by
  refine attempt_wp fun _ _ => ?_
  refine try_call_quiet ⟨trivial, fun _ _ h => h⟩ fun _ => ?_
  refine perform_quiet trivial (fun _ _ h => h) fun _ => ?_
  refine wp_seq ⟨trivial, fun _ _ h => h⟩ ?_
  rintro (e | _) _ rfl <;> trivial

theorem cmd_serve_wp (hs : s.Holds) :
    (cmd_serve ext vars args).run.wp server (OnOk fun _ _ => True) s := by
  refine attempt_wp fun addr _ => wp_try change_dir_wp ?_
  rintro _ s' hsame
  rw [hsame]
  refine attempt_wp fun phone _ => attempt_wp fun _ _ => attempt_wp fun _ _ => ?_
  dsimp only
  by_cases hasked : flag args "--altserver" = true
  · rw [if_pos hasked]
    refine attempt_wp fun port _ => wp_try (start_wp hs port phone) ?_
    rintro port s' ⟨info, hannounced⟩
    refine wp_try (start_dnssd_wp hannounced) ?_
    rintro _ s'' hsame
    exact serve_wp
  · rw [if_neg hasked]
    by_cases hdomain : (opt args "--dns-domain".toList).isSome = true
    · rw [if_pos hdomain]
      trivial
    · rw [if_neg hdomain]
      exact serve_wp

theorem cmd_altserver_wp (hs : s.Holds) :
    (cmd_altserver ext vars args).run.wp server (OnOk fun _ _ => True) s := by
  refine wp_try change_dir_wp ?_
  rintro _ s' hsame
  rw [hsame]
  refine attempt_wp fun _ _ => attempt_wp fun port _ => attempt_wp fun phone _ => ?_
  refine wp_try (start_wp hs port phone) ?_
  rintro port s' ⟨info, hannounced⟩
  refine wp_try (start_dnssd_wp hannounced) ?_
  rintro _ s'' hsame
  rw [hsame]
  refine perform_quiet trivial (fun _ _ h => h) fun _ => ?_
  refine try_call_quiet ⟨trivial, fun _ _ h => h⟩ fun _ => ?_
  exact try_call_quiet ⟨trivial, fun _ _ h => h⟩ fun _ => stop_wp hannounced

theorem main_wp (hs : s.Holds) (line : List Str) :
    (main ext vars line).wp process (fun _ _ => True) s := by
  have houter {p : Start Unit} (h : p.run.wp server (OnOk fun _ _ => True) s) :
      (outer p.run : Program).wp process (fun _ _ => True) s :=
    wp_mono (wp_outer (fun _ _ h => h) (fun _ _ _ _ h => h) h) fun _ _ _ => trivial
  have hmain := @main_dispatched ext vars line
  generalize main ext vars line = p at hmain ⊢
  cases hmain with
  | serve args => exact houter (cmd_serve_wp hs)
  | altserver args => exact houter (cmd_altserver_wp hs)
  | login args => exact houter ⟨trivial, fun r _ _ => by cases r <;> trivial⟩
  | apps args => exact houter ⟨trivial, fun r _ _ => by cases r <;> trivial⟩
  | nothing quiet =>
      refine wp_mono (Prog.wp_of_uses quiet fun c hc => ?_) fun _ _ _ => trivial
      cases c with
      | inl c => cases c <;> first | exact ⟨trivial, fun _ _ h => h⟩ | cases hc
      | inr c => exact ⟨trivial, fun _ _ h => h⟩

theorem starts_wp (list : List (List Str × (Str → Option Str))) {s : Server} (hs : s.Holds) :
    (starts ext list).wp machine (fun _ _ => True) s := by
  induction list generalizing s with
  | nil => trivial
  | cons started rest ih =>
      obtain ⟨line, vars⟩ := started
      refine ⟨trivial, ?_⟩
      rintro _ _ rfl
      have hmain : (inner (main ext vars line) : Machine _).wp machine (fun _ s' => True ∧ s'.Holds)
          { s with listening := none, fullname := none, registered := none } := by
        refine wp_inner (Q := process) (fun _ _ h => h) (fun _ _ _ _ h => h) ?_
        have hfresh : Server.Holds { s with listening := none, fullname := none, registered := none } :=
          hs
        refine Prog.wp_and_keep (fun s c r s' hs hc hstep => ?_) (main_wp hfresh line) hfresh
        cases c with
        | inl c => exact holds_step hs hc hstep
        | inr c =>
            obtain rfl : s' = s := hstep
            exact hs
      exact wp_seq (f := fun _ => starts ext rest) hmain fun _ s' hs' => ih hs'.2

-- The file of the id is not read. Where there is one, what it holds is out of sight from then on.
def id_unread : (c : Exec ⊕ Call ⊕ Cmd) → Both (fun (_ : Exec) => Unit) (Both Answer Resp) c → Prop
  | .inr (.inl .read_server_id), r => r = none
  | _, _ => False

-- However often the program is started, with whatever arguments, AltServer is announced under one id,
-- with the port that it has, and the DNS server says the same, as long as the file of the id can be
-- read.
theorem one_server (list : List (List Str × (Str → Option Str))) (file : Option Str) :
    (starts ext list).wp (machine.until id_unread) (fun _ _ => True) (some { file }) := by
  have hstarts : ∀ s ∈ some ({ file } : Server), (starts ext list).wp machine (fun _ _ => True) s := by
    rintro _ ⟨⟩
    exact starts_wp list nofun
  exact wp_mono (wp_until hstarts) fun _ _ _ => trivial

end Processes

end AltKeeper.Main
