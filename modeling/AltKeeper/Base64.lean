import AltKeeper.Text

namespace AltKeeper

def is_ascii_whitespace (c : UInt8) : Bool := c == 32 || c == 9 || c == 10 || c == 12 || c == 13

def b64_value (c : UInt8) : Option UInt32 :=
  if 65 ≤ c ∧ c ≤ 90 then some (c - 65).toUInt32
  else if 97 ≤ c ∧ c ≤ 122 then some (c - 97 + 26).toUInt32
  else if 48 ≤ c ∧ c ≤ 57 then some (c - 48 + 52).toUInt32
  else if c = 43 then some 62
  else if c = 47 then some 63
  else none

-- `acc` holds the last `bits` bits that make no byte yet; a `=` ends the text.
def b64_loop : Octets → UInt32 → Nat → Octets → Option Octets
  | [], _, _, out => some out
  | c :: rest, acc, bits, out =>
      if c = 61 then some out
      else
        match b64_value c with
        | none => none
        | some v =>
            let acc := (acc <<< 6) ||| v
            let bits := bits + 6
            if 8 ≤ bits then
              let bits := bits - 8
              let out := out ++ [(acc >>> UInt32.ofNat bits).toUInt8]
              b64_loop rest (acc &&& ((1 <<< UInt32.ofNat bits) - 1)) bits out
            else b64_loop rest acc bits out

def b64_decode (s : Str) : Option Octets :=
  b64_loop ((Utf8.encode s).filter (!is_ascii_whitespace ·)) 0 0 []

example : b64_decode "YTpiMTIzNA==".toList = some (Utf8.encode "a:b1234".toList) := by decide

example : b64_decode "a$b".toList = none := by decide

end AltKeeper
