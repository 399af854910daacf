import AltKeeper.Guard.Host
import AltKeeper.Guard.Pin
import AltKeeper.Main

-- What is checked before anything is started.
namespace AltKeeper.Main

open Prog (Both Trace outer runs_ok runs_try runs_try_past uses_any uses_inner uses_lift_ok uses_outer
  uses_try uses_try_runs)

section Starts

-- What listens, answers, makes AltServer known to others, or is a command of the terminal.
def Call.starts : Call → Bool
  | .bind_altserver _ => true
  | .register _ => true
  | .accept _ => true
  | .bind_dns _ => true
  | .answer_queries _ => true
  | .bind_page _ => true
  | .serve_page _ _ => true
  | .login _ => true
  | .apps => true
  | _ => false

-- The DNS server's zone and port: the domain was given, the other options were found right, and the
-- id is one that the program gives itself.
inductive Published (opt : Str → Option Str) : Dnssd.Zone → UInt16 → Prop
  | made {domain id address port clients stored save altserver_port stdout zone}
      {urandom : Except Str { bytes : Octets // bytes.length = 16 }}
      (given : opt "--dns-domain".toList = some domain)
      (right : dns_options opt = .ok (address, port, clients))
      (own : AltServer.server_id stored (urandom.map (·.1)) save = .ok id)
      (new : Dnssd.Zone.new domain (AltServer.instance_name stdout) id altserver_port address clients =
        some zone) : Published opt zone port

variable (ext : Ext) (vars : Str → Option Str) (args : List Str)

structure Ready (addr : SocketAddr) (phone : Option SocketAddr) : Prop where
  phone : phone_addr ext vars args = .ok phone
  anisette : ∃ url, Anisette.anisette_url (Env.var vars "ANISETTE_URL") = .ok url
  bind : page_bind ext args = .ok addr
  safe : check_options addr (page_pin vars args) = .ok ()

-- The commands that run AltServer, with its port and the address of the phone.
inductive RunsAltserver : List Str → List Str → UInt16 → Option SocketAddr → Prop
  | altserver {args port phone url} (found : phone_addr ext vars args = .ok phone)
      (anisette : Anisette.anisette_url (Env.var vars "ANISETTE_URL") = .ok url)
      (given : altserver_port (opt args "--port".toList) = .ok port) :
      RunsAltserver ("altserver".toList :: args) args port phone
  | beside {args addr port phone} (ready : Ready ext vars args addr phone)
      (asked : flag args "--altserver" = true)
      (given : altserver_port (opt args "--altserver-port".toList) = .ok port) :
      RunsAltserver ("serve".toList :: args) args port phone

-- What a command line may start.
inductive Starts (line : List Str) : Call → Prop
  | nothing {c} (quiet : c.starts = false) : Starts line c
  | bind_altserver {args port phone} (runs : RunsAltserver ext vars line args port phone) :
      Starts line (.bind_altserver port)
  | register {args port phone info} (runs : RunsAltserver ext vars line args port phone) :
      Starts line (.register info)
  | accept {args port phone} (runs : RunsAltserver ext vars line args port phone) :
      Starts line (.accept { phone })
  | bind_dns {args port phone zone dns_port} (runs : RunsAltserver ext vars line args port phone)
      (published : Published (opt args) zone dns_port) : Starts line (.bind_dns dns_port)
  | answer_queries {args port phone zone dns_port}
      (runs : RunsAltserver ext vars line args port phone)
      (published : Published (opt args) zone dns_port) : Starts line (.answer_queries zone)
  | bind_page {args addr phone} (serves : line = "serve".toList :: args)
      (ready : Ready ext vars args addr phone) : Starts line (.bind_page addr)
  | serve_page {args addr phone} (serves : line = "serve".toList :: args)
      (ready : Ready ext vars args addr phone) : Starts line (.serve_page (page_pin vars args) phone)
  | login {args : List Str} (typed : line = "login".toList :: args) : Starts line (.login args.head?)
  | apps {args : List Str} (typed : line = "apps".toList :: args) : Starts line .apps

end Starts

section Published

-- What is published is what the model of the options alone makes of them.
theorem published_iff {opt : Str → Option Str} {zone : Dnssd.Zone} {port : UInt16} :
    Published opt zone port ↔ ∃ altserver_port stdout stored,
      ∃ urandom : Except Str { bytes : Octets // bytes.length = 16 }, ∃ save,
        AltKeeper.start_dnssd opt altserver_port stdout
          (AltServer.server_id stored (urandom.map (·.1)) save) = .ok (some (zone, port)) := by
  constructor
  · intro h
    cases h with
    | @made _ _ _ _ _ stored save altserver_port stdout _ urandom hgiven hright hown hnew =>
        obtain ⟨address, haddress, h⟩ := bind_eq_ok.mp hright
        obtain ⟨port, hport, h⟩ := bind_eq_ok.mp h
        obtain ⟨clients, hclients, h⟩ := bind_eq_ok.mp h
        cases h
        refine ⟨altserver_port, stdout, stored, urandom, save, ?_⟩
        unfold AltKeeper.start_dnssd
        simp only [hown, hgiven, haddress, hport, hclients, hnew, Except.mapError, bind, Except.bind]
  · rintro ⟨altserver_port, stdout, stored, urandom, save, h⟩
    unfold AltKeeper.start_dnssd at h
    cases hgiven : opt "--dns-domain".toList with
    | none =>
        rw [hgiven] at h
        cases h
    | some domain =>
        rw [hgiven] at h
        obtain ⟨address, haddress, h⟩ := bind_eq_ok.mp h
        obtain ⟨dns_port, hport, h⟩ := bind_eq_ok.mp h
        obtain ⟨clients, hclients, h⟩ := bind_eq_ok.mp h
        obtain ⟨id, hown, h⟩ := bind_eq_ok.mp h
        rw [mapError_eq_ok] at haddress hport hclients hown
        cases hnew : Dnssd.Zone.new domain (AltServer.instance_name stdout) id altserver_port address
          clients with
        | none =>
            rw [hnew] at h
            cases h
        | some made =>
            rw [hnew] at h
            cases h
            refine .made hgiven ?_ hown hnew
            simp only [dns_options, haddress, hport, hclients, bind, Except.bind]

end Published

section Uses

variable {Q : Call → Prop} {α β : Type}

theorem perform_uses {c : Call} {f : Answer c → Start β} (hc : Q c) (hf : ∀ r, (f r).run.Uses Q) :
    (perform c >>= f).run.Uses Q :=
  uses_try (x := perform c) ⟨hc, fun _ => trivial⟩ hf

theorem try_call_uses {x : Prog Answer (Except Str α)} {why : Str} {f : α → Start β} (hx : x.Uses Q)
    (hf : ∀ a, (f a).run.Uses Q) : (try_call why x >>= f).run.Uses Q :=
  uses_try (x := try_call why x) (hx.bind fun _ => trivial) hf

theorem attempt_uses {x : Except Str α} {f : α → Start β} (hf : ∀ a, x = .ok a → (f a).run.Uses Q) :
    (attempt x >>= f).run.Uses Q :=
  uses_lift_ok fun a ha => hf a (mapError_eq_ok.mp ha)

theorem short_uses (id : Str) : (short id).run.Uses Q := by
  unfold short
  cases id.slice_to 8 <;> trivial

section Altserver

variable (hquiet : ∀ c : Call, c.starts = false → Q c)

include hquiet

theorem log_uses (msg : Str) : (log msg).run.Uses Q := ⟨hquiet _ rfl, fun _ => trivial⟩

theorem server_id_uses : server_id.run.Uses Q := by
  refine perform_uses (hquiet _ rfl) fun stored => ?_
  cases stored.bind AltServer.stored_id with
  | some s => trivial
  | none =>
      refine try_call_uses ⟨hquiet _ rfl, fun _ => trivial⟩ fun bytes => ?_
      refine perform_uses (hquiet _ rfl) fun _ => ?_
      exact try_call_uses ⟨hquiet _ rfl, fun _ => trivial⟩ fun _ => trivial

theorem stop_uses : stop.run.Uses Q := by
  refine perform_uses (hquiet _ rfl) fun mdns => ?_
  cases mdns with
  | false => trivial
  | true =>
      refine perform_uses (hquiet _ rfl) fun info => ?_
      cases info with
      | none => trivial
      | some info => exact perform_uses (hquiet _ rfl) fun _ => log_uses hquiet _

theorem register_bonjour_uses (hregister : ∀ info, Q (.register info)) (port : UInt16) (id : Str) :
    (register_bonjour port id).run.Uses Q := by
  refine perform_uses (hquiet _ rfl) fun mdns => ?_
  cases mdns with
  | false => trivial
  | true =>
      refine perform_uses (hquiet _ rfl) fun stdout => ?_
      refine uses_try (short_uses id) fun short => ?_
      refine try_call_uses ⟨hquiet _ rfl, fun _ => trivial⟩ fun _ => ?_
      refine perform_uses (hquiet _ rfl) fun _ => ?_
      exact Prog.Uses.bind ⟨hregister _, fun _ => trivial⟩ fun _ => trivial

theorem start_uses {port : UInt16} {phone : Option SocketAddr} (hbind : Q (.bind_altserver port))
    (hregister : ∀ info, Q (.register info)) (haccept : Q (.accept { phone })) :
    (start port phone).run.Uses Q := by
  refine try_call_uses ⟨hbind, fun _ => trivial⟩ fun _ => ?_
  refine try_call_uses ⟨hquiet _ rfl, fun _ => trivial⟩ fun port => ?_
  refine uses_try (server_id_uses hquiet) fun id => ?_
  refine uses_try (register_bonjour_uses hquiet hregister port id) fun _ => ?_
  refine uses_try (short_uses id) fun short => ?_
  refine uses_try (log_uses hquiet _) fun _ => ?_
  exact perform_uses haccept fun _ => trivial

omit hquiet in
-- What the program takes for its id is what the file, the random bytes and the writing make of it.
theorem server_id_runs {trace : Trace Answer} {id : Str} (h : server_id.run.Runs trace (.ok id)) :
    ∃ stored, ∃ urandom : Except Str { bytes : Octets // bytes.length = 16 }, ∃ save,
      AltServer.server_id stored (urandom.map (·.1)) save = .ok id := by
  unfold server_id at h
  obtain ⟨_, stored, _, -, -, h⟩ := runs_try h
  cases hstored : stored.bind AltServer.stored_id with
  | some s =>
      rw [hstored] at h
      obtain ⟨-, rfl⟩ := runs_ok h
      refine ⟨stored, .error [], .error [], ?_⟩
      rw [AltServer.server_id, hstored]
  | none =>
      rw [hstored] at h
      obtain ⟨_, bytes, _, -, -, h⟩ := runs_try h
      obtain ⟨_, _, _, -, -, h⟩ := runs_try h
      obtain ⟨_, _, _, -, -, h⟩ := runs_try h
      obtain ⟨-, rfl⟩ := runs_ok h
      refine ⟨stored, .ok bytes, .ok (), ?_⟩
      rw [AltServer.server_id, hstored]
      rfl

theorem start_dnssd_uses (opt : Str → Option Str) (altserver_port : UInt16)
    (hdns : ∀ zone port, Published opt zone port → Q (.bind_dns port) ∧ Q (.answer_queries zone)) :
    (start_dnssd opt altserver_port).run.Uses Q := by
  unfold start_dnssd
  cases hdomain : opt "--dns-domain".toList with
  | none => trivial
  | some domain =>
      refine attempt_uses fun ⟨address, port, clients⟩ hoptions => ?_
      refine perform_uses (hquiet _ rfl) fun stdout => ?_
      refine uses_try_runs (server_id_uses hquiet) fun trace id hid => ?_
      obtain ⟨stored, urandom, save, hmade⟩ := server_id_runs hid
      cases hnew : Dnssd.Zone.new domain (AltServer.instance_name stdout) id altserver_port address
        clients with
      | none => trivial
      | some zone =>
          obtain ⟨hbind, hanswer⟩ := hdns zone port (.made hdomain hoptions hmade hnew)
          refine try_call_uses ⟨hbind, fun _ => trivial⟩ fun _ => ?_
          refine try_call_uses ⟨hquiet _ rfl, fun _ => trivial⟩ fun port => ?_
          refine perform_uses (hquiet _ rfl) fun _ => ?_
          exact ⟨hanswer, fun _ => trivial⟩

end Altserver

end Uses

section Sample

-- Every call succeeds; nothing is known of the phone.
def sample_start (_ : Unit) : (c : Call ⊕ Cmd) → Both Answer Resp c × Unit
  | .inl c => (match c with
      | .set_current_dir _ => .ok ()
      | .read_server_id => some "0123456789".toList
      | .urandom => .ok ⟨List.replicate 16 0, rfl⟩
      | .write_server_id _ => .ok ()
      | .hostname => none
      | .bind_altserver _ => .ok ()
      | .altserver_port => .ok 49500
      | .mdns => true
      | .service_info _ => .ok ()
      | .get_fullname => none
      | .register _ => .ok ()
      | .bind_dns _ => .ok ()
      | .dns_port => .ok 5533
      | .bind_page _ => .ok ()
      | .serve_page _ _ => .ok ()
      | .signal => .ok ()
      | .terminated => .ok ()
      | .pair_usb _ => .ok ()
      | .login _ => .ok ()
      | .apps => .ok ()
      | .println _ | .create_state_dir | .set_fullname _ | .unregister _ | .accept _
      | .answer_queries _ => (), ())
  | .inr c => (silent c, ())

def sample_vars (name : Str) : Option Str :=
  if name = "ALTKEEPER_WEB_PIN".toList then some "1234".toList else none

-- The page for everyone, with a PIN.
def sample_line : List Str := ["serve".toList, "--bind".toList, sample_addr_text]

-- AltServer, and the DNS server with it.
def dns_line : List Str := ["altserver".toList, "--dns-domain".toList, "casa.internal".toList,
  "--dns-address".toList, "10.0.0.5".toList]

def sample_run : Trace (Both Answer Resp) × Except Fail Unit :=
  (main sample sample_vars sample_line).exec sample_start ()

theorem sample_runs : (main sample sample_vars sample_line).Runs sample_run.1 sample_run.2 :=
  Prog.runs_exec _ _ _

theorem sample_run_eq : ∃ said, sample_run.1 =
    [⟨.inl (.bind_page sample_addr), .ok ()⟩, ⟨.inl (.println said), ()⟩] ++
      ⟨.inl (.serve_page (some "1234".toList) none), .ok ()⟩ :: [] :=
  ⟨_, rfl⟩

end Sample

section Main

variable {ext : Ext} {vars : Str → Option Str}

theorem change_dir_uses {Q : Call → Prop} (args : List Str) (h : ∀ dir, Q (.set_current_dir dir)) :
    (change_dir args).run.Uses Q := by
  unfold change_dir
  cases opt args "--dir".toList with
  | none => trivial
  | some dir => exact Prog.Uses.bind ⟨h _, fun _ => trivial⟩ fun _ => trivial

-- What AltServer and the DNS server start once the command is one that runs them.
theorem altserver_uses {line args : List Str} {port : UInt16} {phone : Option SocketAddr}
    (hruns : RunsAltserver ext vars line args port phone) {f : UInt16 → Start Unit}
    (hf : ∀ port, (f port).run.Uses (Starts ext vars line)) :
    (start port phone >>= fun port => start_dnssd (opt args) port >>= fun _ => f port).run.Uses
      (Starts ext vars line) := by
  refine uses_try (start_uses (fun _ => .nothing) (.bind_altserver hruns) (fun _ => .register hruns)
    (.accept hruns)) fun port => ?_
  refine uses_try (start_dnssd_uses (fun _ => .nothing) (opt args) port ?_) fun _ => hf port
  exact fun zone dns_port hpublished => ⟨.bind_dns hruns hpublished, .answer_queries hruns hpublished⟩

theorem cmd_altserver_uses (args : List Str) :
    (cmd_altserver ext vars args).run.Uses (Starts ext vars ("altserver".toList :: args)) := by
  refine uses_try (change_dir_uses args fun _ => .nothing rfl) fun _ => ?_
  refine attempt_uses fun url hurl => attempt_uses fun asked hport => attempt_uses fun phone hphone => ?_
  refine altserver_uses (.altserver hphone hurl hport) fun _ => ?_
  refine perform_uses (.nothing rfl) fun _ => ?_
  refine try_call_uses ⟨.nothing rfl, fun _ => trivial⟩ fun _ => ?_
  refine try_call_uses ⟨.nothing rfl, fun _ => trivial⟩ fun _ => ?_
  exact stop_uses fun _ => .nothing

theorem cmd_serve_uses (args : List Str) :
    (cmd_serve ext vars args).run.Uses (Starts ext vars ("serve".toList :: args)) := by
  refine attempt_uses fun addr hbind => ?_
  refine uses_try (change_dir_uses args fun _ => .nothing rfl) fun _ => ?_
  refine attempt_uses fun phone hphone => attempt_uses fun _ hsafe => attempt_uses fun url hurl => ?_
  have hready : Ready ext vars args addr phone := ⟨hphone, ⟨url, hurl⟩, hbind, hsafe⟩
  have hserve : (serve ext addr (page_pin vars args) phone).run.Uses
      (Starts ext vars ("serve".toList :: args)) := by
    refine attempt_uses fun _ _ => ?_
    refine try_call_uses ⟨.bind_page rfl hready, fun _ => trivial⟩ fun _ => ?_
    refine perform_uses (.nothing rfl) fun _ => ?_
    exact Prog.Uses.bind ⟨.serve_page rfl hready, fun _ => trivial⟩ fun _ => trivial
  dsimp only
  by_cases hasked : flag args "--altserver" = true
  · rw [if_pos hasked]
    exact attempt_uses fun port hport => altserver_uses (.beside hready hasked hport) fun _ => hserve
  · rw [if_neg hasked]
    by_cases hdomain : (opt args "--dns-domain".toList).isSome = true
    · rw [if_pos hdomain]
      trivial
    · rw [if_neg hdomain]
      exact hserve

-- What the commands call that start nothing.
def Unstarted : Call ⊕ Cmd → Prop
  | .inl (.println _) => True
  | .inl (.pair_usb _) => True
  | .inl _ => False
  | .inr _ => True

theorem with_phone_uses (args : List Str) (cmd : Option SocketAddr → Act (Except Fail Unit)) :
    (with_phone ext vars args cmd).Uses Unstarted := by
  unfold with_phone
  cases phone_addr ext vars args with
  | error e => trivial
  | ok addr => exact uses_inner (uses_any _) fun _ _ => trivial

-- A command line serves the page, runs AltServer, is for the terminal, or starts nothing.
inductive Dispatched (ext : Ext) (vars : Str → Option Str) : List Str → Program → Prop
  | serve (args : List Str) :
      Dispatched ext vars ("serve".toList :: args) (outer (cmd_serve ext vars args).run)
  | altserver (args : List Str) :
      Dispatched ext vars ("altserver".toList :: args) (outer (cmd_altserver ext vars args).run)
  | login (args : List Str) :
      Dispatched ext vars ("login".toList :: args)
        (outer (try_call [] (call (.login args.head?))).run)
  | apps (args : List Str) :
      Dispatched ext vars ("apps".toList :: args) (outer (try_call [] (call .apps)).run)
  | nothing {line : List Str} {p : Program} (quiet : p.Uses Unstarted) : Dispatched ext vars line p

theorem main_dispatched (line : List Str) : Dispatched ext vars line (main ext vars line) := by
  cases line with
  | nil => exact .nothing trivial
  | cons cmd args =>
      have hphone (run : Option SocketAddr → Act (Except Fail Unit)) :
          Dispatched ext vars (cmd :: args) (with_phone ext vars args run) :=
        .nothing (with_phone_uses args run)
      rw [main]
      refine iteInduction (fun _ => ?_) fun _ => iteInduction (fun _ => hphone _) fun _ => ?_
      · exact .nothing ⟨trivial, fun _ => trivial⟩
      refine iteInduction (fun _ => ?_) fun _ => iteInduction (fun h => ?_) fun _ => ?_
      · have husb : (pair_usb args).run.Uses fun c => Unstarted (.inl c) :=
          try_call_uses ⟨trivial, fun _ => trivial⟩ fun _ => ⟨trivial, fun _ => trivial⟩
        exact .nothing (uses_outer husb fun c hc => hc)
      · exact h ▸ .login args
      refine iteInduction (fun h => h ▸ .apps args) fun _ => iteInduction (fun _ => ?_) fun _ => ?_
      · unfold renew
        cases min_days args with
        | error e => exact .nothing trivial
        | ok days => exact hphone _
      refine iteInduction (fun h => h ▸ .serve args) fun _ => ?_
      refine iteInduction (fun h => h ▸ .altserver args) fun _ => ?_
      refine iteInduction (fun _ => hphone _) fun _ => iteInduction (fun _ => hphone _) fun _ => ?_
      exact .nothing trivial

def Started (ext : Ext) (vars : Str → Option Str) (line : List Str) : Call ⊕ Cmd → Prop
  | .inl c => Starts ext vars line c
  | .inr _ => True

theorem main_uses (line : List Str) : (main ext vars line).Uses (Started ext vars line) := by
  have hmain := @main_dispatched ext vars line
  generalize main ext vars line = p at hmain
  cases hmain with
  | serve args => exact uses_outer (cmd_serve_uses args) fun _ hc => hc
  | altserver args => exact uses_outer (cmd_altserver_uses args) fun _ hc => hc
  | login args => exact ⟨Starts.login rfl, fun _ => trivial⟩
  | apps args => exact ⟨Starts.apps rfl, fun _ => trivial⟩
  | nothing quiet =>
      refine quiet.mono fun c hc => ?_
      cases c with
      | inl c => cases c <;> first | exact .nothing rfl | cases hc
      | inr c => trivial

-- Nothing listens, is announced or answers unless the options it depends on were found right, and
-- what is for the terminal is started by its own commands.
theorem starts_checked {line : List Str} {trace : Trace (Both Answer Resp)}
    {result : Except Fail Unit} (h : (main ext vars line).Runs trace result) {c : Call} {r : Answer c}
    (hmem : ⟨.inl c, r⟩ ∈ trace) : Starts ext vars line c :=
  (main_uses line).mem h _ hmem

-- The zones that the DNS server answers for are those of the model of the options alone.
theorem answered_zone {line : List Str} {trace : Trace (Both Answer Resp)}
    {result : Except Fail Unit} (h : (main ext vars line).Runs trace result) {zone : Dnssd.Zone}
    {r : Answer (.answer_queries zone)} (hmem : ⟨.inl (.answer_queries zone), r⟩ ∈ trace) :
    ∃ args altserver_port stdout id port,
      AltKeeper.start_dnssd (opt args) altserver_port stdout id = .ok (some (zone, port)) := by
  have hstarts : Starts ext vars line (.answer_queries zone) := (main_uses line).mem h _ hmem
  cases hstarts with
  | nothing hquiet => cases hquiet
  | answer_queries runs published =>
      obtain ⟨altserver_port, stdout, stored, urandom, save, hmade⟩ := published_iff.mp published
      exact ⟨_, altserver_port, stdout, _, _, hmade⟩

def Call.answers_queries : Call ⊕ Cmd → Bool
  | .inl (.answer_queries _) => true
  | _ => false

theorem starts_checked_dns : ∃ zone args port phone dns_port,
    RunsAltserver sample sample_vars dns_line args port phone ∧ Published (opt args) zone dns_port := by
  have hasked : ((main sample sample_vars dns_line).exec sample_start ()).1.any
      (fun e => Call.answers_queries e.1) = true := by decide +kernel
  obtain ⟨before, c | c, r, after, htest, hrun⟩ := Prog.exec_event sample_start _ _ hasked
  · cases c with
    | answer_queries zone =>
        cases starts_checked hrun (List.mem_append_right _ List.mem_cons_self) with
        | nothing hquiet => cases hquiet
        | @answer_queries args port phone _ dns_port runs published =>
            exact ⟨zone, args, port, phone, dns_port, runs, published⟩
    | _ => cases htest
  · cases htest

-- What the check of the options leaves.
theorem check_options_ok {addr : SocketAddr} {pin : Option Str} (h : check_options addr pin = .ok ()) :
    (pin = none ∧ is_loopback addr.ip = true) ∨ ∃ p, pin = some p ∧ 4 ≤ p.length := by
  unfold check_options at h
  cases pin with
  | none =>
      cases hloop : is_loopback addr.ip with
      | true => exact .inl ⟨rfl, rfl⟩
      | false =>
          rw [hloop] at h
          cases h
  | some p =>
      dsimp only at h
      by_cases hshort : p.length < 4
      · rw [if_pos hshort] at h
        cases h
      · exact .inr ⟨p, rfl, by omega⟩

theorem attempt_past {α β : Type} {x : Except Str α} {f : α → Start β} {before after : Trace Answer}
    {e : Prog.Event Answer} {b : Except Fail β} (h : (attempt x >>= f).run.Runs (before ++ e :: after) b) :
    ∃ a, x = .ok a ∧ (f a).run.Runs (before ++ e :: after) b := by
  cases x with
  | error err => exact absurd h.1 (by simp)
  | ok a => exact ⟨a, rfl, h⟩

section Served

variable {before after : Trace Answer} {pin : Option Str} {phone : Option SocketAddr}
  {r : Answer (.serve_page pin phone)} {result : Except Fail Unit}

theorem serve_opened {addr : SocketAddr} {pin' : Option Str} {phone' : Option SocketAddr}
    (h : (serve ext addr pin' phone').run.Runs (before ++ ⟨.serve_page pin phone, r⟩ :: after) result) :
    ⟨.bind_page addr, .ok ()⟩ ∈ before := by
  obtain ⟨_, -, h⟩ := attempt_past h
  obtain ⟨first, _, mid, rfl, hfirst, -⟩ := runs_try_past h
    (Prog.Uses.bind ⟨by simp, fun _ => trivial⟩ fun _ => trivial)
  obtain ⟨r, rest, rfl, rfl, hr⟩ := hfirst
  cases r with
  | error e => cases hr
  | ok _ => exact List.mem_cons_self

theorem cmd_serve_opened {args : List Str}
    (h : (cmd_serve ext vars args).run.Runs (before ++ ⟨.serve_page pin phone, r⟩ :: after) result) :
    ∃ addr, ⟨.bind_page addr, .ok ()⟩ ∈ before := by
  have hquiet : ∀ c : Call, c.starts = false → c ≠ .serve_page pin phone := by
    rintro c hc rfl
    cases hc
  obtain ⟨addr, -, h⟩ := attempt_past h
  obtain ⟨_, _, before, rfl, -, h⟩ := runs_try_past h (change_dir_uses args fun _ => hquiet _ rfl)
  obtain ⟨_, -, h⟩ := attempt_past h
  obtain ⟨_, -, h⟩ := attempt_past h
  obtain ⟨_, -, h⟩ := attempt_past h
  dsimp only at h
  by_cases hasked : flag args "--altserver" = true
  · rw [if_pos hasked] at h
    obtain ⟨_, -, h⟩ := attempt_past h
    obtain ⟨_, _, before, rfl, -, h⟩ := runs_try_past h
      (start_uses hquiet (by simp) (by simp) (by simp))
    obtain ⟨_, _, before, rfl, -, h⟩ := runs_try_past h
      (start_dnssd_uses hquiet _ _ fun _ _ _ => ⟨by simp, by simp⟩)
    refine ⟨addr, ?_⟩
    exact List.mem_append_right _ (List.mem_append_right _ (List.mem_append_right _ (serve_opened h)))
  · rw [if_neg hasked] at h
    by_cases hdomain : (opt args "--dns-domain".toList).isSome = true
    · rw [if_pos hdomain] at h
      exact absurd h.1 (by simp)
    · rw [if_neg hdomain] at h
      exact ⟨addr, List.mem_append_right _ (serve_opened h)⟩

end Served

theorem main_opened {line : List Str} {before after : Trace (Both Answer Resp)} {pin : Option Str}
    {phone : Option SocketAddr} {r : Answer (.serve_page pin phone)} {result : Except Fail Unit}
    (h : (main ext vars line).Runs (before ++ ⟨.inl (.serve_page pin phone), r⟩ :: after) result) :
    ∃ addr, ⟨.inl (.bind_page addr), .ok ()⟩ ∈ before := by
  have hstarts : Starts ext vars line (.serve_page pin phone) :=
    (main_uses line).mem h _ (List.mem_append_right _ List.mem_cons_self)
  cases hstarts with
  | nothing hquiet => cases hquiet
  | @serve_page args _ _ serves _ =>
      subst serves
      obtain ⟨calls, hcalls, hmap⟩ := Prog.runs_outer_eq (p := (cmd_serve ext vars args).run) h
      obtain ⟨first, rest, rfl, rfl, hrest⟩ := List.append_eq_map_iff.mp hmap
      obtain ⟨⟨c, r'⟩, after', rfl, he, -⟩ := List.map_eq_cons_iff.mp hrest
      cases he
      obtain ⟨addr, hbound⟩ := cmd_serve_opened hcalls
      exact ⟨addr, List.mem_map_of_mem hbound⟩

-- The page is served at the one address that it listens at, which was found safe: a request goes
-- further with the PIN, of at least four characters; without a PIN it can only come from this computer,
-- and its `Host` is one that the guard takes for local.
theorem page_protected {line : List Str} {before after : Trace (Both Answer Resp)} {pin : Option Str}
    {phone : Option SocketAddr} {r : Answer (.serve_page pin phone)} {result : Except Fail Unit}
    (h : (main ext vars line).Runs (before ++ ⟨.inl (.serve_page pin phone), r⟩ :: after) result) :
    ∃ addr, ⟨.inl (.bind_page addr), .ok ()⟩ ∈ before ∧
      (∀ addr' r', ⟨.inl (.bind_page addr'), r'⟩ ∈ before → addr' = addr) ∧
      ∀ req, Web.Admitted pin req →
        (∃ p, pin = some p ∧ 4 ≤ p.length ∧ Web.basic_password_ok req.headers p = true) ∨
        (pin = none ∧ is_loopback addr.ip = true ∧ Web.host_is_local req.headers = true) := by
  have hstarts := (main_uses line).mem h
  cases hstarts _ (List.mem_append_right _ List.mem_cons_self) with
  | nothing hquiet => cases hquiet
  | @serve_page args addr _ serves ready =>
      have honly : ∀ addr' r', ⟨.inl (.bind_page addr'), r'⟩ ∈ before → addr' = addr := by
        intro addr' r' hbind
        cases hstarts _ (List.mem_append_left _ hbind) with
        | nothing hquiet => cases hquiet
        | @bind_page args' _ _ serves' ready' =>
            obtain ⟨-, rfl⟩ := List.cons.inj (serves.symm.trans serves')
            exact Except.ok.inj (ready'.bind.symm.trans ready.bind)
      obtain ⟨addr', hbound⟩ := main_opened h
      obtain rfl := honly addr' _ hbound
      refine ⟨addr', hbound, honly, fun req hadmitted => ?_⟩
      have hpasses := (Web.admitted_iff _ req).mp hadmitted
      rcases check_options_ok ready.safe with ⟨hnone, hloop⟩ | ⟨p, hp, hlength⟩
      · rw [hnone] at hpasses ⊢
        exact .inr ⟨rfl, hloop, ((Web.refusal_none_iff req).mp hpasses).1⟩
      · rw [hp] at hpasses ⊢
        refine .inl ⟨p, rfl, hlength, ?_⟩
        by_contra hwrong
        simp [Web.refusal, Bool.eq_false_iff.mpr hwrong] at hpasses

theorem page_protected_pin : ∃ addr, ⟨.inl (.bind_page addr), .ok ()⟩ ∈ sample_run.1 ∧
    ∀ req, Web.Admitted (some "1234".toList) req →
      (∃ p, some "1234".toList = some p ∧ 4 ≤ p.length ∧ Web.basic_password_ok req.headers p = true) ∨
      (some "1234".toList = none ∧ is_loopback addr.ip = true ∧ Web.host_is_local req.headers = true) := by
  obtain ⟨said, hrun⟩ := sample_run_eq
  have hruns := sample_runs
  rw [hrun] at hruns
  obtain ⟨addr, hbound, -, hprotected⟩ := page_protected hruns
  refine ⟨addr, ?_, hprotected⟩
  rw [hrun]
  exact List.mem_append_left _ hbound

end Main

end AltKeeper.Main
