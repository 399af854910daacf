import AltKeeper.Text
import Mathlib.Data.List.Basic

-- The provisioning profiles on the phone.
namespace AltKeeper

-- What the plist library reads; a date is an instant, in nanoseconds from 1970.
inductive Plist where
  | dictionary (entries : List (Str × Plist))
  | array (values : List Plist)
  | string (s : Str)
  | date (instant : Int)
  | other

namespace Plist

def as_dictionary : Plist → Option (List (Str × Plist))
  | .dictionary entries => some entries
  | _ => none

def as_array : Plist → Option (List Plist)
  | .array values => some values
  | _ => none

def as_string : Plist → Option Str
  | .string s => some s
  | _ => none

def as_date : Plist → Option Int
  | .date instant => some instant
  | _ => none

end Plist

namespace Profile

structure PhoneProfile where
  uuid : Str
  name : Str
  team_id : Option Str
  bundle_id : Option Str
  expires : Option Int
  deriving DecidableEq

-- The whole seconds of a duration.
def as_secs (ns : Int) : Int := ns / 1000000000

def PhoneProfile.days_left (p : PhoneProfile) (now : Int) : Option Int :=
  p.expires.map fun exp =>
    if now ≤ exp then as_secs (exp - now) / 86400
    else -(as_secs (now - exp) / 86400) - 1

-- Dates compare as instants, and a missing date comes before any.
def is_later (a b : Option Int) : Bool :=
  match a, b with
  | some x, some y => y < x
  | some _, none => true
  | none, _ => false

-- The profile `q` already kept for the bundle of `p`, replaced when `p` expires later; `none`
-- when there is no such profile.
def replace_older (p : PhoneProfile) : List PhoneProfile → Option (List PhoneProfile)
  | [] => none
  | q :: latest =>
      if p.bundle_id.isSome ∧ q.bundle_id = p.bundle_id then
        some ((if is_later p.expires q.expires then p else q) :: latest)
      else (replace_older p latest).map (q :: ·)

def latest_by_bundle (profiles : List PhoneProfile) : List PhoneProfile :=
  profiles.foldl (fun latest p => (replace_older p latest).getD (latest ++ [p])) []

section Parse

-- Where `w` begins in `raw`, for the first time and for the last.
def position (w : Octets) (raw : Octets) : Option Nat :=
  (List.range (raw.length + 1 - w.length)).find? fun i => (raw.drop i).take w.length == w

def rposition (w : Octets) (raw : Octets) : Option Nat :=
  (List.range (raw.length + 1 - w.length)).reverse.find? fun i => (raw.drop i).take w.length == w

def XML_START : Octets := Utf8.encode "<?xml".toList

def PLIST_END : Octets := Utf8.encode "</plist>".toList

-- From the first `<?xml` to the last `</plist>`, which must not end before it.
inductive Slice where
  | absent
  | panics
  | found (bytes : Octets)
  deriving DecidableEq

def plist_slice (raw : Octets) : Slice :=
  match position XML_START raw, rposition PLIST_END raw with
  | some start, some last =>
      let stop := last + 8
      if stop < start then .panics else .found ((raw.take stop).drop start)
  | _, _ => .absent

def from_dictionary (d : List (Str × Plist)) : Option PhoneProfile :=
  let text (k : String) := (d.lookup k.toList).bind Plist.as_string
  let team_id := do
    let values ← (← d.lookup "TeamIdentifier".toList).as_array
    (← values.head?).as_string
  let app_identifier := do
    let entries ← (← d.lookup "Entitlements".toList).as_dictionary
    (← entries.lookup "application-identifier".toList).as_string
  let bundle_id := do
    (← app_identifier).dropPrefix? ((← team_id) ++ ".".toList)
  (text "UUID").map fun uuid => {
    uuid
    name := (text "Name").getD []
    team_id
    bundle_id
    expires := (d.lookup "ExpirationDate".toList).bind Plist.as_date }

-- `from_reader` is the plist library's reader; the outer `none` is the panic of the slice.
def parse (from_reader : Octets → Option Plist) (raw : Octets) : Option (Option PhoneProfile) :=
  match plist_slice raw with
  | .absent => some none
  | .panics => none
  | .found bytes => some do from_dictionary (← (← from_reader bytes).as_dictionary)

end Parse

end Profile

end AltKeeper
