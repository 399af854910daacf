import AltKeeper.Text
import AltKeeper.Lib.I64

namespace AltKeeper

-- `{n:0width}`: the sign counts as one of the characters.
def zero_padded (width : Nat) (n : Int) : Str :=
  let sign : Str := if n < 0 then ['-'] else []
  sign ++ (toString n.natAbs).toList.leftpad (width - sign.length) '0'

namespace Apple

def yoe (doe : Int) : Option Int := do
  I64.div (← I64.sub (← I64.add (← I64.sub doe (← I64.div doe 1460)) (← I64.div doe 36524))
    (← I64.div doe 146096)) 365

def doy (doe yoe : Int) : Option Int := do
  I64.sub doe (← I64.sub (← I64.add (← I64.mul 365 yoe) (← I64.div yoe 4)) (← I64.div yoe 100))

def mp (doy : Int) : Option Int := do
  I64.div (← I64.add (← I64.mul 5 doy) 2) 153

def day (doy mp : Int) : Option Int := do
  I64.add (← I64.sub doy (← I64.div (← I64.add (← I64.mul 153 mp) 2) 5)) 1

def month (mp : Int) : Option Int := if mp < 10 then I64.add mp 3 else I64.sub mp 9

-- January and February end the year that began in March.
def turn_year (year month : Int) : Option Int :=
  if month ≤ 2 then I64.add year 1 else some year

-- `none` where a number of 64 bits overflows.
def iso8601_utc (epoch_secs : UInt64) : Option Str := do
  let days := I64.of_u64 (epoch_secs / 86400)
  let rem := epoch_secs % 86400
  let z ← I64.add days 719468
  let era ← I64.div_euclid z 146097
  let doe ← I64.rem_euclid z 146097
  let yoe ← yoe doe
  let year ← I64.add yoe (← I64.mul era 400)
  let doy ← doy doe yoe
  let mp ← mp doy
  let day ← day doy mp
  let month ← month mp
  let year ← turn_year year month
  pure (zero_padded 4 year ++ '-' :: zero_padded 2 month ++ '-' :: zero_padded 2 day ++
    'T' :: zero_padded 2 (rem / 3600).toNat ++ ':' :: zero_padded 2 (rem % 3600 / 60).toNat ++
    ':' :: zero_padded 2 (rem % 60).toNat ++ ['Z'])

example : iso8601_utc 1700000000 = some "2023-11-14T22:13:20Z".toList := by decide

example : iso8601_utc 951782400 = some "2000-02-29T00:00:00Z".toList := by decide

end Apple

end AltKeeper
