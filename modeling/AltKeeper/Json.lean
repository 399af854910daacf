import AltKeeper.Text
import Mathlib.Data.Rat.Defs

-- serde_json's `Value`: what a request is read into and a reply is written from.
namespace AltKeeper

inductive Number where
  | posInt (n : UInt64)
  | negInt (n : Int64)
  | float (x : ℚ)
  deriving DecidableEq

inductive Value where
  | null
  | bool (b : Bool)
  | number (n : Number)
  | string (s : Str)
  | array (values : List Value)
  | object (fields : List (Str × Value))

namespace Value

-- `value["key"]`: null when there is no such field.
def get (v : Value) (key : String) : Value :=
  match v with
  | .object fields => (fields.lookup key.toList).getD .null
  | _ => .null

def as_str : Value → Option Str
  | .string s => some s
  | _ => none

def as_u64 : Value → Option UInt64
  | .number (.posInt n) => some n
  | _ => none

def as_array : Value → Option (List Value)
  | .array values => some values
  | _ => none

@[simp] theorem as_str_string (s : Str) : (string s).as_str = some s := rfl

end Value

end AltKeeper
