import AltKeeper.Renew
import Mathlib.Data.Char
import Mathlib.Data.List.Lex

-- What the page shows: the texts and rows made from errors, profiles and the log of renewals.
namespace AltKeeper.Web

section Errors

def short_error (err : Str) : Str :=
  let lines := (Str.lines err).map Str.trim
  ((lines.find? (· ≠ [])).getD err).take 240

def friendly_error (ext : Ext) (err : Str) : Str :=
  let e := ext.to_lowercase err
  let has (word : String) := Str.contains e word.toList
  if has "manca il pairing" then
    "iPhone pairing is missing. Set it up once over USB (see the guide).".toList
  else if has "early eof" ∨ has "pairing con l'iphone non riuscito" then
    "The iPhone no longer recognizes the pairing: set it up again over USB.".toList
  else if has "no route to host" ∨ has "hostunreachable" ∨ has "non risponde" ∨
      has "non trovo l'iphone" ∨ has "timed out" ∨ has "refused" then
    "I cannot find the iPhone on the network. Is it on and connected to your home Wi-Fi?".toList
  else short_error err

def BULLET : Char := '●'

def short_apple_error (ext : Ext) (err : Str) : Str :=
  let e := ext.to_lowercase err
  let has (word : String) := Str.contains e word.toList
  if has "-20101" ∨ has "entered incorrectly" then "Incorrect Apple ID or password.".toList
  else if has "429" ∨ has "too many requests" then
    "Apple is rate-limiting requests. Wait a while, then try once.".toList
  else if has "aborted" ∨ has "abort" then
    "Sign-in canceled: the code did not arrive in time.".toList
  else
    let last := ((Str.lines err).filter fun l => BULLET ∈ l).getLast?.map fun l =>
      Str.trim ((Str.trim l).dropWhile (· == BULLET))
    (last.getD (short_error err)).take 240

end Errors

section Apps

def label_of (bundle team : Str) : Str := (bundle.dropSuffix? ('.' :: team)).getD bundle

def level_for (days : Int) : Level := if days ≤ 1 then .urgent else if days ≤ 3 then .soon else .ok

-- A row for each profile that has a bundle, in the order of the profiles.
def app_rows (ext : Ext) (team : Str) : List Profile.PhoneProfile → Act (List AppView)
  | [] => return []
  | p :: profiles => do
      match p.bundle_id with
      | none => app_rows ext team profiles
      | some bundle =>
          let days := (← days_left p).getD (-1)
          let view : AppView := {
            bundle
            label := label_of bundle team
            days
            expires := expires_text ext p
            level := level_for days }
          let views ← app_rows ext team profiles
          return view :: views

def row_le (a b : AppView) : Bool := a.days < b.days || (a.days == b.days && decide (a.label ≤ b.label))

def app_views (ext : Ext) (profiles : List Profile.PhoneProfile) (team : Str) : Act (List AppView) := do
  let views ← app_rows ext team (Profile.latest_by_bundle (of_team team profiles))
  return views.mergeSort row_le

end Apps

section History

-- The blocks of the log, each with the lines after its heading.
def history_blocks : List Str → List (Str × List Str) → List (Str × List Str)
  | [], blocks => blocks
  | line :: lines, blocks =>
      match line.dropPrefix? "=== ".toList with
      | some heading => history_blocks lines (blocks ++ [(Str.trim heading, [])])
      | none =>
          match blocks.getLast? with
          | none => history_blocks lines blocks
          | some (heading, said) =>
              history_blocks lines (blocks.dropLast ++ [(heading, said ++ [line])])

def result_of (line : Str) : Option Str :=
  match line.dropPrefix? "esito:".toList with
  | some rest => some rest
  | none => line.dropPrefix? "result:".toList

def history_code (lines : List Str) : Option Int :=
  (lines.reverse.findSome? result_of).bind fun c => Str.parse_i32 (Str.trim c)

def history_summary (ext : Ext) (lines : List Str) : Str :=
  let code := history_code lines
  let has (line : Str) (word : String) : Bool := Str.contains line word.toList
  let installed := lines.countP fun l =>
    has l "installato sul telefono" || has l "installed on the phone"
  if code.any (· ≠ 0) then
    let last := (lines.reverse.map Str.trim).find? fun l =>
      l ≠ [] && !("esito:".toList.isPrefixOf l) && !("result:".toList.isPrefixOf l)
    friendly_error ext (last.getD "errore".toList)
  else if 0 < installed then
    "Renewed ".toList ++ (toString installed).toList ++ " apps".toList
  else if lines.any fun l => has l "Niente da rinnovare" || has l "non serve rinnovare" ||
      has l "Nothing to renew" || has l "no renewal needed" then
    "Nothing to renew".toList
  else "Done".toList

def parse_history (ext : Ext) (text : Str) (max : Nat) : List Value :=
  ((history_blocks (Str.lines text) []).reverse.take max).map fun block =>
    .object [("when".toList, .string block.1), ("ok".toList, .bool (history_code block.2 == some 0)),
      ("summary".toList, .string (history_summary ext block.2))]

end History

end AltKeeper.Web
