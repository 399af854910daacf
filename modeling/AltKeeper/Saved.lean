import AltKeeper.Renew

-- Profiles taken off the phone, and the copies that are kept of them.
namespace AltKeeper

def SAVED_DIR : Str := "profili-salvati".toList

def saved_path (uuid : Str) : Str := SAVED_DIR ++ "/".toList ++ uuid ++ ".mobileprovision".toList

section Commands

variable (ext : Ext)

def print (line : Str) : Act Unit := ask (.println line)

-- The first profile with the UUID, and its bytes; the outer `none` is the panic of the parser.
def find_profile (uuid : Str) : List Octets → Option (Option (Octets × Profile.PhoneProfile))
  | [] => some none
  | raw :: rest => do
      match ← ext.parse raw with
      | some p =>
          if p.uuid.to_ascii_lowercase = uuid.to_ascii_lowercase then return some (raw, p)
          else find_profile uuid rest
      | none => find_profile uuid rest

-- The copy is written, and read again.
def save_copy (path : Str) (found : Octets) : Act (Except Str Unit) := do
  match ← ask (.create_dir_all SAVED_DIR) with
  | .error e => return .error e
  | .ok () =>
      match ← ask (.set_permissions SAVED_DIR 0o700) with
      | .error e => return .error e
      | .ok () =>
          match ← ask (.write_file path found) with
          | .error e => return .error e
          | .ok () =>
              match ← ask (.set_permissions path 0o600) with
              | .error e => return .error e
              | .ok () =>
                  match ← ask (.read_file path) with
                  | .error e => return .error e
                  | .ok bytes =>
                      if bytes ≠ found then
                        return .error ("la copia in ".toList ++ path ++
                          " non coincide: non tolgo niente".toList)
                      else return .ok ()

def save_and_remove (found : Octets) (parsed : Profile.PhoneProfile) : Act (Except Str Unit) := do
  let path := saved_path parsed.uuid
  match ← save_copy path found with
  | .error e => return .error e
  | .ok () =>
      print ("Copia salvata in ".toList ++ path)
      match ← ask (.remove parsed.uuid) with
      | .error e => return .error e
      | .ok () =>
          print ("Tolto dal telefono: ".toList ++ parsed.name ++ "  [".toList ++ parsed.uuid ++
            "]".toList)
          return .ok ()

-- The part of the removal that has the link open.
def remove_on_phone (uuid : Str) : Act (Except Fail Unit) := do
  match ← ask .copy_all with
  | .error e => return .error (.err e)
  | .ok raw =>
      match find_profile ext uuid raw with
      | none => return .error .panic
      | some none => return .error (.err "profilo non trovato sul telefono".toList)
      | some (some (found, parsed)) => return (← save_and_remove found parsed).mapError .err

def cmd_profile_remove (addr : Option SocketAddr) (uuid : Option Str) : Act (Except Fail Unit) := do
  match uuid with
  | none => return .error (.err "uso: altkeeper profile-remove <uuid>".toList)
  | some uuid =>
      match ← open_phone ext print addr with
      | .error e => return .error (.err e)
      | .ok () =>
          let result ← remove_on_phone ext uuid
          ask .drop_link
          return result

def install_saved (bytes : Octets) (parsed : Profile.PhoneProfile) : Act (Except Fail Unit) := do
  match ← ask (.install bytes) with
  | .error e => return .error (.err e)
  | .ok () =>
      print ("Rimesso sul telefono: ".toList ++ parsed.name ++ "  [".toList ++ parsed.uuid ++
        "]".toList)
      return .ok ()

-- The part of the restoring that needs the phone.
def restore_on_phone (addr : Option SocketAddr) (bytes : Octets) (parsed : Profile.PhoneProfile) :
    Act (Except Fail Unit) := do
  match ← open_phone ext print addr with
  | .error e => return .error (.err e)
  | .ok () =>
      let result ← install_saved bytes parsed
      ask .drop_link
      return result

def cmd_profile_restore (addr : Option SocketAddr) (file : Option Str) : Act (Except Fail Unit) := do
  match file with
  | none => return .error (.err "uso: altkeeper profile-restore <file>".toList)
  | some file =>
      match ← ask (.read_file file) with
      | .error e => return .error (.err e)
      | .ok bytes =>
          match ext.parse bytes with
          | none => return .error .panic
          | some none => return .error (.err "il file non è un profilo valido".toList)
          | some (some parsed) => restore_on_phone ext addr bytes parsed

end Commands

end AltKeeper
