import AltKeeper.System

-- Finding the phone and keeping a link to it.
namespace AltKeeper.Phone

section Address

variable (ext : Ext)

def read_last_addr : Act (Option SocketAddr) := do
  let content ← ask .read_last_addr
  return content.bind fun s => ext.parse_addr (Str.trim s)

def write_last_addr (addr : SocketAddr) : Act Unit := do
  if (← read_last_addr ext) = some addr then return ()
  ask (.write_last_addr (ext.addr_text addr))

end Address

-- The addresses tried so far and the last error.
structure Search where
  tried : List SocketAddr
  last_err : Str

-- What an attempt leaves: the link, or the error to remember.
def attempt (ext : Ext) (addr : SocketAddr) : Act (Except Str Unit) := do
  match ← ask (.connect addr) with
  | .linked =>
      write_last_addr ext addr
      return .ok ()
  | .failed e => return .error e
  | .expired => return .error (ext.addr_text addr ++ " non risponde".toList)

section Search

variable (ext : Ext) (say : Str → Act Unit)

-- The addresses known in advance, in order; the first that answers ends the search.
def try_known : List SocketAddr → Search → Act (Option SocketAddr × Search)
  | [], s => return (none, s)
  | addr :: known, s => do
      let s := { s with tried := s.tried ++ [addr] }
      match ← attempt ext addr with
      | .ok () => return (some addr, s)
      | .error e =>
          say (ext.addr_text addr ++ " non risponde, cerco il telefono in rete...".toList)
          try_known known { s with last_err := e }

def try_found : List SocketAddr → Search → Act (Option SocketAddr × Search)
  | [], s => return (none, s)
  | addr :: found, s => do
      let s := { s with tried := s.tried ++ [addr] }
      say ("Trovato un telefono a ".toList ++ ext.addr_text addr ++ ", provo...".toList)
      match ← attempt ext addr with
      | .ok () => return (some addr, s)
      | .error e => try_found found { s with last_err := e }

-- Bonjour, or the scan of the network in the second step.
def find_step (port : UInt16) (step : Nat) : Act (List SocketAddr) := do
  if step = 1 then
    say "Bonjour non risponde: cerco sulla rete locale...".toList
    ask (.scan_lan port)
  else ask .discover

-- The searches on the network that are left.
def search (port : UInt16) : List Nat → Search → Act (Option SocketAddr × Search)
  | [], s => return (none, s)
  | step :: steps, s => do
      let found ← find_step say port step
      match ← try_found ext say (found.filter (· ∉ s.tried)) s with
      | (some addr, s) => return (some addr, s)
      | (none, s) => search port steps s

def say_searching (tried : List SocketAddr) : Act Unit := do
  if tried = [] then say "Cerco il telefono in rete...".toList

def connect_auto (preferred : Option SocketAddr) : Act (Except Str SocketAddr) := do
  if !(← ask .pairing_exists) then
    return .error "manca il pairing remoto rp-pairing.plist: crealo con `altkeeper pair-usb`".toList
  let last ← read_last_addr ext
  let known := preferred.toList ++ (last.toList.filter (· ∉ preferred.toList))
  match ← try_known ext say known ⟨[], []⟩ with
  | (some addr, _) => return .ok addr
  | (none, s) =>
      say_searching say s.tried
      let port := ((← read_last_addr ext).map (·.port)).getD 49152
      match ← search ext say port [0, 1, 2] s with
      | (some addr, _) => return .ok addr
      | (none, s) =>
          if s.tried = [] ∨ s.last_err = [] then
            return .error "non trovo l'iPhone in rete: è acceso e sul Wi-Fi di casa?".toList
          else return .error s.last_err

end Search

-- The profiles of what the phone gave; `none` is the panic of the parser.
def parse_all (ext : Ext) : List Octets → Option (List Profile.PhoneProfile)
  | [] => some []
  | raw :: rest => do
      let p ← ext.parse raw
      let ps ← parse_all ext rest
      some (p.toList ++ ps)

def phone_profiles (ext : Ext) : Act (Except Fail (List Profile.PhoneProfile)) := do
  match ← ask .copy_all with
  | .error e => return .error (.err e)
  | .ok raw =>
      match parse_all ext raw with
      | none => return .error .panic
      | some profiles => return .ok profiles

end AltKeeper.Phone
