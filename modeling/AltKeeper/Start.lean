import AltKeeper.Dnssd
import AltKeeper.Identity
import AltKeeper.System

-- The options with which the DNS server is started.
namespace AltKeeper

open Dnssd

section Numbers

-- A number of an IPv4 address has no sign and no zero in front.
def read_octet (part : Str) : Option UInt8 :=
  if part.length ≤ 3 ∧ part.all Char.isDigit ∧ (part.head? = some '0' → part.length = 1) then
    part.parse_u8
  else none

-- `s.parse::<Ipv4Addr>()`.
def parse_ipv4 (s : Str) : Except Str Ipv4Addr :=
  match (s.splitOn '.').mapM read_octet with
  | some [a, b, c, d] => .ok ⟨[a, b, c, d], rfl⟩
  | _ => .error "invalid IPv4 address syntax".toList

-- What the first digit that cannot be read is wrong with.
def digits_error (max : Nat) : Nat → Str → Str
  | _, [] => []
  | acc, c :: rest =>
      let n := acc * 10 + (c.toNat - '0'.toNat)
      if !c.isDigit then "invalid digit found in string".toList
      else if max < n then "number too large to fit in target type".toList
      else digits_error max n rest

def parse_int_error (max : Nat) (s : Str) : Str :=
  if s = [] then "cannot parse integer from empty string".toList
  else if s.drop_plus = [] then "invalid digit found in string".toList
  else digits_error max 0 s.drop_plus

def parse_uint (max : Nat) (s : Str) : Except Str Nat :=
  match s.parse_unsigned max with
  | some n => .ok n
  | none => .error (parse_int_error max s)

end Numbers

def parse_cidr (s : Str) : Except Str (Ipv4Addr × UInt8) :=
  match s.split_once '/' with
  | none => .error ("--dns-clients ".toList ++ s ++
      ": manca la lunghezza, per esempio 10.7.0.0/24".toList)
  | some (ip, bits) => do
      let ip ← (parse_ipv4 ip).mapError ("--dns-clients: indirizzo non valido: ".toList ++ ·)
      let bits ← (parse_uint 255 bits).mapError
        ("--dns-clients: /".toList ++ bits ++ " non valido: ".toList ++ ·)
      if 32 < bits then
        .error ("--dns-clients: /".toList ++ (toString bits).toList ++
          " non esiste, il massimo è /32".toList)
      else .ok (ip, UInt8.ofNat bits)

section Dnssd

variable (opt : Str → Option Str)

def dns_address : Except Str Ipv4Addr :=
  match opt "--dns-address".toList with
  | none => .error ("--dns-domain vuole anche --dns-address <ip>: ".toList ++
      "l'indirizzo a cui il telefono si collega, ".toList ++
      "di solito quello della VPN di questa macchina".toList)
  | some s => (parse_ipv4 s).mapError ("--dns-address non valido: ".toList ++ ·)

def dns_port : Except Str Nat :=
  match opt "--dns-port".toList with
  | some p => (parse_uint 65535 p).mapError ("--dns-port non valido: ".toList ++ ·)
  | none => .ok 5533

def dns_clients (address : Ipv4Addr) : Except Str (Ipv4Addr × UInt8) :=
  match opt "--dns-clients".toList with
  | some cidr => parse_cidr cidr
  | none => .ok (address, 24)

-- The zone that is published and the port of the DNS server, before it listens. `id` is what
-- `altserver::id()` gave.
def start_dnssd (altserver_port : UInt16) (stdout : Option Octets) (id : Except Str Str) :
    Except Fail (Option (Zone × UInt16)) :=
  match opt "--dns-domain".toList with
  | none => .ok none
  | some domain => do
      let address ← (dns_address opt).mapError Fail.err
      let port ← (dns_port opt).mapError Fail.err
      let clients ← (dns_clients opt address).mapError Fail.err
      let id ← id.mapError Fail.err
      match Zone.new domain (AltServer.instance_name stdout) id altserver_port address clients with
      | none => .error .panic
      | some zone => .ok (some (zone, UInt16.ofNat port))

end Dnssd

section Options

theorem mapError_eq_ok {ε ε' α : Type} {x : Except ε α} {f : ε → ε'} {a : α} :
    x.mapError f = .ok a ↔ x = .ok a := by
  cases x <;> simp [Except.mapError]

theorem bind_eq_ok {ε α β : Type} {x : Except ε α} {f : α → Except ε β} {b : β} :
    x >>= f = .ok b ↔ ∃ a, x = .ok a ∧ f a = .ok b := by
  cases x <;> simp [bind, Except.bind]

theorem parse_cidr_bits {s : Str} {clients : Ipv4Addr × UInt8} (h : parse_cidr s = .ok clients) :
    clients.2 ≤ 32 := by
  unfold parse_cidr at h
  split at h
  · cases h
  · obtain ⟨address, -, h⟩ := bind_eq_ok.mp h
    obtain ⟨bits, -, h⟩ := bind_eq_ok.mp h
    by_cases hlarge : 32 < bits
    · rw [if_pos hlarge] at h
      cases h
    · rw [if_neg hlarge] at h
      cases h
      have h32 : (32 : UInt8).toNat = 32 := rfl
      show UInt8.ofNat bits ≤ 32
      rw [UInt8.le_iff_toNat_le, UInt8.toNat_ofNat']
      omega

theorem dns_clients_bits {opt : Str → Option Str} {address : Ipv4Addr}
    {clients : Ipv4Addr × UInt8} (h : dns_clients opt address = .ok clients) : clients.2 ≤ 32 := by
  unfold dns_clients at h
  split at h
  · exact parse_cidr_bits h
  · cases h
    show (24 : UInt8) ≤ 32
    decide

-- The zone is made with the program's own name, and with a network of at most 32 bits.
theorem start_dnssd_zone {opt : Str → Option Str} {altserver_port port : UInt16}
    {stdout : Option Octets} {id : Except Str Str} {z : Zone}
    (h : start_dnssd opt altserver_port stdout id = .ok (some (z, port))) :
    ∃ domain server_id address clients, clients.2 ≤ 32 ∧
      Zone.new domain (AltServer.instance_name stdout) server_id altserver_port address clients =
        some z := by
  unfold start_dnssd at h
  split at h
  · cases h
  · rename_i domain hdomain
    obtain ⟨address, -, h⟩ := bind_eq_ok.mp h
    obtain ⟨dns_port, -, h⟩ := bind_eq_ok.mp h
    obtain ⟨clients, hclients, h⟩ := bind_eq_ok.mp h
    obtain ⟨server_id, -, h⟩ := bind_eq_ok.mp h
    split at h
    · cases h
    · rename_i zone hzone
      cases h
      refine ⟨domain, server_id, address, clients, ?_, hzone⟩
      exact dns_clients_bits (mapError_eq_ok.mp hclients)

end Options

end AltKeeper
