import AltKeeper.Renew

namespace AltKeeper.Apple

def ACCOUNT_FILE : Str := "account.json".toList

section Saving

variable (to_vec_pretty : Account → Except Str Octets)

-- The file is emptied when it is opened, and then written in place.
def save_account (acc : Account) : Act (Except Str Unit) := do
  match to_vec_pretty acc with
  | .error e => return .error e
  | .ok data =>
      match ← ask (.open_truncate ACCOUNT_FILE 0o600) with
      | .error e => return .error e
      | .ok () =>
          match ← ask (.write_opened data) with
          | .error e => return .error e
          | .ok () => ask (.set_permissions ACCOUNT_FILE 0o600)

end Saving

end AltKeeper.Apple
