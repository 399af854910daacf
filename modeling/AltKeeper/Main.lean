import AltKeeper.AltServer
import AltKeeper.Anisette.Sessions
import AltKeeper.Guard
import AltKeeper.Saved
import AltKeeper.Start

-- The program's commands, and how its listeners are started: AltServer with its announcement, the DNS
-- server, and the page.
namespace AltKeeper.Main

open Dnssd (Ipv4Addr Zone)
open Prog (Both inner outer)

section Calls

-- What is announced of AltServer, by Bonjour.
structure ServiceInfo where
  inst : Str
  host : Str
  port : UInt16
  server_id : Str

inductive Call where
  | println (line : Str)
  | set_current_dir (dir : Str)
  -- the file `state/altserver-id`, and what a new id is made of
  | read_server_id
  | urandom
  | create_state_dir
  | write_server_id (id : Str)
  -- what the command printed, when it ran and succeeded
  | hostname
  -- AltServer
  | bind_altserver (port : UInt16)
  | altserver_port
  | mdns
  | service_info (info : ServiceInfo)
  | set_fullname (info : ServiceInfo)
  | get_fullname
  | register (info : ServiceInfo)
  | unregister (info : ServiceInfo)
  | accept (ctx : AltServer.Ctx)
  -- the DNS server
  | bind_dns (port : UInt16)
  | dns_port
  | answer_queries (zone : Zone)
  -- the page
  | bind_page (bind : SocketAddr)
  | serve_page (pin : Option Str) (phone : Option SocketAddr)
  -- Ctrl-C, or the signal to terminate
  | signal
  | terminated
  -- commands of the terminal
  | pair_usb (out : Str)
  | login (apple_id : Option Str)
  | apps

@[reducible] def Answer : Call → Type
  | .set_current_dir _ => Except Str Unit
  | .read_server_id => Option Str
  | .urandom => Except Str { bytes : Octets // bytes.length = 16 }
  | .write_server_id _ => Except Str Unit
  | .hostname => Option Octets
  | .bind_altserver _ => Except Str Unit
  | .altserver_port => Except Str UInt16
  | .mdns => Bool
  | .service_info _ => Except Str Unit
  | .get_fullname => Option ServiceInfo
  | .register _ => Except Str Unit
  | .bind_dns _ => Except Str Unit
  | .dns_port => Except Str UInt16
  | .bind_page _ => Except Str Unit
  | .serve_page _ _ => Except Str Unit
  | .signal => Except Str Unit
  | .terminated => Except Str Unit
  | .pair_usb _ => Except Str Unit
  | .login _ => Except Str Unit
  | .apps => Except Str Unit
  | _ => Unit

abbrev Start := ExceptT Fail (Prog Answer)

def call (c : Call) : Prog Answer (Answer c) := Prog.perform c

def perform (c : Call) : Start (Answer c) := ExceptT.lift (call c)

def attempt {α : Type} (x : Except Str α) : Start α := liftM (x.mapError Fail.err)

-- A call that may fail, with what is said of the failure.
def try_call {α : Type} (why : Str) (x : Prog Answer (Except Str α)) : Start α :=
  ExceptT.mk (x >>= fun r => .ret (r.mapError fun e => .err (why ++ e)))

end Calls

section Altserver

-- A number of this program's ports, as it is written.
def port_text (port : UInt16) : Str := (toString port.toNat).toList

def log (msg : Str) : Start Unit := perform (.println ("[altserver] ".toList ++ msg))

def server_id : Start Str := do
  match (← perform .read_server_id).bind AltServer.stored_id with
  | some s => return s
  | none =>
      let bytes ← try_call "non riesco a generare il serverID: ".toList (call .urandom)
      let id := bytes.1.flatMap AltServer.hex_byte
      perform .create_state_dir
      try_call "non riesco a salvare il serverID: ".toList (call (.write_server_id id))
      return id

-- The first eight bytes; a character that they cut panics.
def short (id : Str) : Start Str :=
  match id.slice_to 8 with
  | none => throw .panic
  | some s => return s

def register_bonjour (port : UInt16) (id : Str) : Start Unit := do
  if !(← perform .mdns) then throw (.err "Bonjour non disponibile".toList)
  let host := AltServer.hostname (← perform .hostname)
  let short ← short id
  let info : ServiceInfo := {
    inst := "altkeeper-".toList ++ host
    host := "altkeeper-".toList ++ short ++ ".local.".toList
    port
    server_id := id }
  try_call "Bonjour: ".toList (call (.service_info info))
  perform (.set_fullname info)
  try_call "Bonjour: ".toList (call (.register info))

-- AltServer listens and is announced; the port is the one it has.
def start (port : UInt16) (phone : Option SocketAddr) : Start UInt16 := do
  try_call ("AltServer: non riesco ad ascoltare sulla porta ".toList ++ port_text port ++ ": ".toList)
    (call (.bind_altserver port))
  let port ← try_call [] (call .altserver_port)
  let id ← server_id
  register_bonjour port id
  log ("in ascolto sulla porta ".toList ++ port_text port ++ ", serverID ".toList ++ (← short id) ++
    "...".toList)
  perform (.accept { phone })
  return port

def stop : Start Unit := do
  if ← perform .mdns then
    match ← perform .get_fullname with
    | none => return ()
    | some info =>
        perform (.unregister info)
        log "annuncio Bonjour tolto".toList

end Altserver

section Dnssd

def address_text (address : Ipv4Addr) : Str :=
  List.intercalate ['.'] (address.octets.map fun b => (toString b.toNat).toList)

-- The server listens at every address.
def start_dns (zone : Zone) (port : UInt16) : Start Unit := do
  try_call ("DNS: non riesco ad ascoltare su 0.0.0.0:".toList ++ port_text port ++ ": ".toList)
    (call (.bind_dns port))
  let port ← try_call [] (call .dns_port)
  perform (.println ("[dns-sd] porta ".toList ++ port_text port ++ ": pubblico ".toList ++ zone.inst ++
    " -> ".toList ++ address_text zone.address ++ ":".toList ++ port_text zone.port))
  perform (.answer_queries zone)

variable (opt : Str → Option Str)

def dns_options : Except Str (Ipv4Addr × UInt16 × (Ipv4Addr × UInt8)) := do
  let address ← dns_address opt
  let port ← dns_port opt
  let clients ← dns_clients opt address
  .ok (address, UInt16.ofNat port, clients)

def start_dnssd (altserver_port : UInt16) : Start Unit := do
  match opt "--dns-domain".toList with
  | none => return ()
  | some domain =>
      let (address, port, clients) ← attempt (dns_options opt)
      let stdout ← perform .hostname
      let id ← server_id
      match Zone.new domain (AltServer.instance_name stdout) id altserver_port address clients with
      | none => throw .panic
      | some zone => start_dns zone port

end Dnssd

section Page

-- `IpAddr::is_loopback`.
def is_loopback (ip : Octets) : Bool :=
  if ip.length = 4 then ip.head? = some 127 else ip = List.replicate 15 0 ++ [1]

def check_options (bind : SocketAddr) (pin : Option Str) : Except Str Unit :=
  match pin with
  | none =>
      if is_loopback bind.ip then .ok ()
      else .error ("per ascoltare fuori da questo computer serve un PIN: ".toList ++
        "imposta ALTKEEPER_WEB_PIN (o usa --pin)".toList)
  | some p => if p.length < 4 then .error "il PIN deve avere almeno 4 caratteri".toList else .ok ()

def serve (ext : Ext) (bind : SocketAddr) (pin : Option Str) (phone : Option SocketAddr) :
    Start Unit := do
  attempt (check_options bind pin)
  try_call ("non riesco ad ascoltare su ".toList ++ ext.addr_text bind ++ ": ".toList)
    (call (.bind_page bind))
  perform (.println ("Interfaccia web su http://".toList ++ ext.addr_text bind ++ " (".toList ++
    (if pin.isSome then "protetta da PIN: il nome utente può essere qualsiasi".toList
    else "raggiungibile solo da questo computer".toList) ++ ")".toList))
  try_call [] (call (.serve_page pin phone))

end Page

section Commands

variable (ext : Ext)

-- What stands after a name among the arguments.
def opt (args : List Str) (name : Str) : Option Str :=
  (args.idxOf? name).bind fun i => args[i + 1]?

def flag (args : List Str) (name : String) : Bool := args.contains name.toList

def parse_addr (s : Str) : Except Str SocketAddr :=
  match ext.parse_addr s with
  | some addr => .ok addr
  | none => .error "invalid socket address syntax".toList

variable (vars : Str → Option Str) (args : List Str)

def phone_addr : Except Str (Option SocketAddr) :=
  match ((opt args "--phone".toList).or (Env.var vars "PHONE")).filter fun s => !(Str.trim s).isEmpty with
  | none => .ok none
  | some s => ((parse_addr ext (Str.trim s)).mapError
      ("indirizzo del telefono non valido: ".toList ++ ·)).map some

def altserver_port (value : Option Str) : Except Str UInt16 :=
  match value with
  | none => .ok 49500
  | some v => ((parse_uint 65535 v).mapError ("porta non valida: ".toList ++ ·)).map UInt16.ofNat

def page_bind : Except Str SocketAddr :=
  (parse_addr ext ((opt args "--bind".toList).getD "127.0.0.1:8787".toList)).mapError
    ("--bind non valido (serve ip:porta): ".toList ++ ·)

def page_pin : Option Str :=
  ((opt args "--pin".toList).or (Env.var vars "WEB_PIN")).filter fun p => !p.isEmpty

def change_dir : Start Unit := do
  match opt args "--dir".toList with
  | none => return ()
  | some dir => try_call ("--dir ".toList ++ dir ++ ": ".toList) (call (.set_current_dir dir))

def cmd_serve : Start Unit := do
  let bind ← attempt (page_bind ext args)
  let pin := page_pin vars args
  change_dir args
  let phone ← attempt (phone_addr ext vars args)
  attempt (check_options bind pin)
  let _ ← attempt (Anisette.anisette_url (Env.var vars "ANISETTE_URL"))
  if flag args "--altserver" then
    let port ← attempt (altserver_port (opt args "--altserver-port".toList))
    let port ← start port phone
    start_dnssd (opt args) port
  else if (opt args "--dns-domain".toList).isSome then
    throw (.err "--dns-domain serve solo insieme a --altserver".toList)
  serve ext bind pin phone

def cmd_altserver : Start Unit := do
  change_dir args
  let _ ← attempt (Anisette.anisette_url (Env.var vars "ANISETTE_URL"))
  let port ← attempt (altserver_port (opt args "--port".toList))
  let phone ← attempt (phone_addr ext vars args)
  let port ← start port phone
  start_dnssd (opt args) port
  perform (.println "AltServer attivo. Ctrl-C per fermarlo.".toList)
  try_call [] (call .signal)
  try_call [] (call .terminated)
  stop

-- What is wrong with the digits of a negative number.
def negative_error (digits : Str) : Str :=
  let e := digits_error (2 ^ 63) 0 digits
  if e = "number too large to fit in target type".toList then
    "number too small to fit in target type".toList
  else e

-- `s.parse::<i64>()`.
def parse_i64 (s : Str) : Except Str Int :=
  match s with
  | '-' :: digits =>
      if digits = [] then .error "invalid digit found in string".toList
      else match digits.foldlM (Str.read_digit (2 ^ 63)) 0 with
        | some n => .ok (-(n : Int))
        | none => .error (negative_error digits)
  | s => (parse_uint (2 ^ 63 - 1) s).map fun n => (n : Int)

def min_days : Except Str Int :=
  match opt args "--min-days".toList with
  | none => .ok 3
  | some v => (parse_i64 v).mapError ("--min-days non valido: ".toList ++ ·)

def print_profiles : List Profile.PhoneProfile → Act Unit
  | [] => return ()
  | p :: profiles => do
      print (← profile_line ext p)
      print_profiles profiles

-- The part of the command that has the link open.
def show_profiles : Act (Except Fail Unit) := do
  match ← Phone.phone_profiles ext with
  | .error e => return .error e
  | .ok profiles =>
      print ((toString profiles.length).toList ++ " profili installati sul telefono:".toList)
      print_profiles ext profiles
      return .ok ()

def cmd_phone (addr : Option SocketAddr) : Act (Except Fail Unit) := do
  match ← open_phone ext print addr with
  | .error e => return .error (.err e)
  | .ok () =>
      let result ← show_profiles ext
      ask .drop_link
      return result

def PAIRING_FILE : Str := "rp-pairing.plist".toList

def pair_usb : Start Unit := do
  let out := args.head?.getD PAIRING_FILE
  try_call [] (call (.pair_usb out))
  perform (.println ("pairing remoto creato e salvato in ".toList ++ out))

def VERSION : Str := "0.2.0".toList

def USAGE : Str := "uso: altkeeper <phone|pair-usb|login|apps|renew|profile-remove|".toList ++
  "profile-restore|serve|altserver|version> [opzioni]".toList

abbrev Program := Prog (Both Answer Resp) (Except Fail Unit)

-- A command that is given the address of the phone.
def with_phone (cmd : Option SocketAddr → Act (Except Fail Unit)) : Program :=
  match phone_addr ext vars args with
  | .error e => return .error (.err e)
  | .ok addr => inner (cmd addr)

def renew : Program :=
  match min_days args with
  | .error e => return .error (.err e)
  | .ok days => with_phone ext vars args fun addr =>
      cmd_renew ext print addr (flag args "--dry-run") (flag args "--force") days

def main : List Str → Program
  | [] => return .error (.err USAGE)
  | cmd :: args =>
      if cmd = "version".toList ∨ cmd = "--version".toList ∨ cmd = "-V".toList then
        outer (perform (.println ("altkeeper ".toList ++ VERSION))).run
      else if cmd = "phone".toList then with_phone ext vars args (cmd_phone ext)
      else if cmd = "pair-usb".toList then outer (pair_usb args).run
      else if cmd = "login".toList then outer (try_call [] (call (.login args.head?))).run
      else if cmd = "apps".toList then outer (try_call [] (call .apps)).run
      else if cmd = "renew".toList then renew ext vars args
      else if cmd = "serve".toList then outer (cmd_serve ext vars args).run
      else if cmd = "altserver".toList then outer (cmd_altserver ext vars args).run
      else if cmd = "profile-remove".toList then
        with_phone ext vars args fun addr => cmd_profile_remove ext addr args.head?
      else if cmd = "profile-restore".toList then
        with_phone ext vars args fun addr => cmd_profile_restore ext addr args.head?
      else return .error (.err USAGE)

end Commands

end AltKeeper.Main
