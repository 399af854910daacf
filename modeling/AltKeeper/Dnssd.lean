import AltKeeper.Text
import AltKeeper.Lib.Bytes

namespace AltKeeper.Dnssd

structure Ipv4Addr where
  octets : List UInt8
  four : octets.length = 4
  deriving DecidableEq

def TTL : UInt32 := 120

def TYPE_A : UInt16 := 1
def TYPE_PTR : UInt16 := 12
def TYPE_TXT : UInt16 := 16
def TYPE_SRV : UInt16 := 33
def TYPE_ANY : UInt16 := 255
def CLASS_IN : UInt16 := 1

def FLAG_TRUNCATED : UInt16 := 0x0200

def RCODE_OK : UInt16 := 0
def RCODE_NXDOMAIN : UInt16 := 3

def MAX_REPLY : Nat := 512

-- `inst` is the source's field `instance`.
structure Zone where
  domain : Str
  browse : Str
  inst : Str
  host : Str
  server_id : Str
  port : UInt16
  address : Ipv4Addr
  clients : Ipv4Addr × UInt8
  deriving DecidableEq

-- `none` is the panic of the slice `id[..8]` inside a character.
def Zone.new (domain inst id : Str) (port : UInt16) (address : Ipv4Addr)
    (clients : Ipv4Addr × UInt8) : Option Zone := do
  let domain := (domain.trim_matches '.').to_ascii_lowercase
  let inst := inst.to_ascii_lowercase
  let short ← id.slice_to (min id.len 8)
  let short := short.to_ascii_lowercase
  some {
    browse := "_altserver._tcp.".toList ++ domain
    inst := inst ++ "._altserver._tcp.".toList ++ domain
    host := "altkeeper-".toList ++ short ++ ".".toList ++ domain
    server_id := id
    port
    address
    clients
    domain }

inductive Record where
  | A (name : Str) (address : Ipv4Addr)
  | Ptr (name target : Str)
  | Txt (name text : Str)
  | Srv (name : Str) (port : UInt16) (target : Str)
  deriving DecidableEq

section Answer

-- The octets are read back to front; `i` of them have been read.
def read_octets : List Str → Nat → List UInt8 → Option (List UInt8 × Nat)
  | [], i, octets => some (octets, i)
  | part :: parts, i, octets =>
      if 4 ≤ i then none
      else
        match part.parse_u8 with
        | none => none
        | some n => read_octets parts (i + 1) (octets.set (3 - i) n)

def u32_from (octets : List UInt8) : UInt32 :=
  octets.foldl (fun acc o => (acc <<< 8) ||| o.toUInt32) 0

def Zone.covers_reverse (z : Zone) (name : Str) : Bool :=
  match name.dropSuffix? ".in-addr.arpa".toList with
  | none => false
  | some rev =>
      match read_octets (rev.splitOn '.') 0 [0, 0, 0, 0] with
      | none => false
      | some (octets, quanti) =>
          if quanti = 0 then false
          else
            -- missing octets: the name covers a network and is aligned to the left
            let octets := if quanti < 4 then octets.rotateLeft (4 - quanti) else octets
            let (rete, bits) := z.clients
            if bits = 0 then true
            else if 32 < bits then false
            else
              let maschera : UInt32 := 0xFFFFFFFF <<< (32 - bits.toUInt32)
              u32_from octets &&& maschera == u32_from rete.octets &&& maschera

def Zone.answer (z : Zone) (name : Str) (qtype : UInt16) : Option (List Record) :=
  let want (t : UInt16) : Bool := qtype == t || qtype == TYPE_ANY
  let browsing := ["b", "db", "lb"].findSome? fun p =>
    name.dropPrefix? (p.toList ++ "._dns-sd._udp.".toList)
  if browsing.any fun rest => rest == z.domain || z.covers_reverse rest then
    some (if want TYPE_PTR then [.Ptr name z.domain] else [])
  else if name = z.browse then
    some (if want TYPE_PTR then [.Ptr name z.inst] else [])
  else if name = z.inst then
    some ((if want TYPE_SRV then [.Srv name z.port z.host] else []) ++
      (if want TYPE_TXT then [.Txt name ("serverID=".toList ++ z.server_id)] else []))
  else if name = z.host then
    some (if want TYPE_A then [.A name z.address] else [])
  else none

end Answer

section Query

structure Query where
  id : UInt16
  recursion_desired : Bool
  name : Str
  qtype : UInt16
  qclass : UInt16
  deriving DecidableEq

-- `room` is 33 less the labels read so far: the 33rd label is one too many.
def read_labels (buf : Octets) : Nat → Nat → Option (List Str × Nat)
  | 0, _ => none
  | room + 1, at_ =>
      match buf[at_]? with
      | none => none
      | some len =>
          if len = 0 then some ([], at_ + 1)
          else if 0xC0 ≤ len ∨ 63 < len then none
          else
            let stop := at_ + 1 + len.toNat
            if buf.length < stop then none
            else
              let label := (buf.drop (at_ + 1)).take len.toNat
              match read_labels buf room stop with
              | none => none
              | some (parts, next) => some (Str.to_ascii_lowercase (Utf8.lossy label) :: parts, next)

def read_name (buf : Octets) (at_ : Nat) : Option (Str × Nat) :=
  (read_labels buf 33 at_).map fun (parts, next) => (['.'].intercalate parts, next)

def u16_at (buf : Octets) (i : Nat) : UInt16 := Bytes.ofBe16 (buf.getD i 0) (buf.getD (i + 1) 0)

def parse_query (buf : Octets) : Option Query :=
  if buf.length < 12 then none
  else
    let id := u16_at buf 0
    let flags := u16_at buf 2
    if flags &&& 0x8000 ≠ 0 then none
    else if (flags >>> 11) &&& 0xF ≠ 0 then none
    else if u16_at buf 4 ≠ 1 then none
    else
      match read_name buf 12 with
      | none => none
      | some (name, next) =>
          if buf.length < next + 4 then none
          else
            let qtype := u16_at buf next
            let qclass := u16_at buf (next + 2)
            if qclass ≠ CLASS_IN ∧ qclass ≠ TYPE_ANY then none
            else some { id, recursion_desired := flags &&& 0x0100 != 0, name, qtype, qclass }

end Query

section Reply

def write_label (out : Octets) (label : Str) : Octets :=
  let bytes := Utf8.encode label
  let len := min bytes.length 63
  out ++ [UInt8.ofNat len] ++ bytes.take len

def write_name (out : Octets) (name : Str) : Octets :=
  ((name.splitOn '.').filter (· ≠ [])).foldl write_label out ++ [0]

def Record.name_and_type : Record → Str × UInt16
  | .A name _ => (name, TYPE_A)
  | .Ptr name _ => (name, TYPE_PTR)
  | .Txt name _ => (name, TYPE_TXT)
  | .Srv name _ _ => (name, TYPE_SRV)

def write_data (out : Octets) : Record → Octets
  | .A _ address => out ++ address.octets
  | .Ptr _ target => write_name out target
  | .Txt _ text =>
      let bytes := Utf8.encode text
      let len := min bytes.length 255
      out ++ [UInt8.ofNat len] ++ bytes.take len
  | .Srv _ port target =>
      write_name (out ++ Bytes.be16 0 ++ Bytes.be16 0 ++ Bytes.be16 port) target

def write_record (out : Octets) (r : Record) : Octets :=
  let (name, rtype) := r.name_and_type
  let out := write_name out name
  let out := out ++ Bytes.be16 rtype ++ Bytes.be16 CLASS_IN ++ Bytes.be32 TTL
  -- the length of the data is known once they are written: leave its place and come back
  let len_at := out.length
  let out := out ++ Bytes.be16 0
  let start := out.length
  let out := write_data out r
  let len := UInt16.ofNat (out.length - start)
  out.take len_at ++ Bytes.be16 len ++ out.drop (len_at + 2)

def build_reply (q : Query) (rcode : UInt16) (records : List Record) : Octets :=
  let flags := 0x8400 ||| (if q.recursion_desired then 0x0100 else 0) ||| rcode
  let out := Bytes.be16 q.id ++ Bytes.be16 flags ++ Bytes.be16 1 ++
    Bytes.be16 (UInt16.ofNat records.length) ++ Bytes.be16 0 ++ Bytes.be16 0
  let out := write_name out q.name ++ Bytes.be16 q.qtype ++ Bytes.be16 q.qclass
  records.foldl write_record out

def handle (zone : Zone) (query : Octets) : Option Octets := do
  let q ← parse_query query
  let answers := zone.answer q.name q.qtype
  let rcode := if answers.isNone then RCODE_NXDOMAIN else RCODE_OK
  let records := answers.getD []
  let out := build_reply q rcode records
  if MAX_REPLY < out.length then
    -- too long for UDP: no answers, and the flag that asks the client to come back
    some ((build_reply q RCODE_OK []).modify 2 (· ||| (FLAG_TRUNCATED >>> 8).toUInt8))
  else some out

end Reply

end AltKeeper.Dnssd
