import Mathlib.Data.Nat.Basic

-- Integers as bytes, in both orders, and readers that take a value off the front of a byte
-- list and give back the rest.
namespace Bytes

def be16 (n : UInt16) : List UInt8 := [UInt8.ofNat (n.toNat / 256), UInt8.ofNat n.toNat]

def be32 (n : UInt32) : List UInt8 :=
  [UInt8.ofNat (n.toNat / 16777216), UInt8.ofNat (n.toNat / 65536), UInt8.ofNat (n.toNat / 256),
    UInt8.ofNat n.toNat]

-- The low 32 bits of `n`, least significant byte first.
def le32 (n : Nat) : List UInt8 :=
  [UInt8.ofNat n, UInt8.ofNat (n / 256), UInt8.ofNat (n / 65536), UInt8.ofNat (n / 16777216)]

def ofBe16 (hi lo : UInt8) : UInt16 := UInt16.ofNat (hi.toNat * 256 + lo.toNat)

def ofBe32 (a b c d : UInt8) : UInt32 :=
  UInt32.ofNat (a.toNat * 16777216 + b.toNat * 65536 + c.toNat * 256 + d.toNat)

def ofLe32 (a b c d : UInt8) : Nat :=
  a.toNat + b.toNat * 256 + c.toNat * 65536 + d.toNat * 16777216

def take16 : List UInt8 → Option (UInt16 × List UInt8)
  | hi :: lo :: rest => some (ofBe16 hi lo, rest)
  | _ => none

def take32 : List UInt8 → Option (UInt32 × List UInt8)
  | a :: b :: c :: d :: rest => some (ofBe32 a b c d, rest)
  | _ => none

def takeN (count : Nat) (bytes : List UInt8) : Option (List UInt8 × List UInt8) :=
  if count ≤ bytes.length then some (bytes.take count, bytes.drop count) else none

@[simp] theorem length_be16 (n : UInt16) : (be16 n).length = 2 := rfl

@[simp] theorem length_be32 (n : UInt32) : (be32 n).length = 4 := rfl

@[simp] theorem length_le32 (n : Nat) : (le32 n).length = 4 := rfl

theorem ofBe16_be16 (n : UInt16) :
    ofBe16 (UInt8.ofNat (n.toNat / 256)) (UInt8.ofNat n.toNat) = n := by
  have hn := n.toNat_lt
  apply UInt16.toNat_inj.mp
  simp only [ofBe16, UInt8.toNat_ofNat', UInt16.toNat_ofNat']
  omega

theorem ofBe32_be32 (n : UInt32) :
    ofBe32 (UInt8.ofNat (n.toNat / 16777216)) (UInt8.ofNat (n.toNat / 65536))
      (UInt8.ofNat (n.toNat / 256)) (UInt8.ofNat n.toNat) = n := by
  have hn := n.toNat_lt
  apply UInt32.toNat_inj.mp
  simp only [ofBe32, UInt8.toNat_ofNat', UInt32.toNat_ofNat']
  omega

theorem ofLe32_le32 (n : Nat) (hn : n < 4294967296) :
    ofLe32 (UInt8.ofNat n) (UInt8.ofNat (n / 256)) (UInt8.ofNat (n / 65536))
      (UInt8.ofNat (n / 16777216)) = n := by
  simp only [ofLe32, UInt8.toNat_ofNat']
  omega

theorem ofLe32_lt (a b c d : UInt8) : ofLe32 a b c d < 4294967296 := by
  have ha := a.toNat_lt
  have hb := b.toNat_lt
  have hc := c.toNat_lt
  have hd := d.toNat_lt
  simp only [ofLe32]
  omega

theorem le32_ofLe32 (a b c d : UInt8) : le32 (ofLe32 a b c d) = [a, b, c, d] := by
  have ha := a.toNat_lt
  have hb := b.toNat_lt
  have hc := c.toNat_lt
  have hd := d.toNat_lt
  simp only [le32, ofLe32, List.cons.injEq, and_true]
  refine ⟨?_, ?_, ?_, ?_⟩ <;> apply UInt8.toNat_inj.mp <;> simp only [UInt8.toNat_ofNat'] <;> omega

theorem be16_ofBe16 (hi lo : UInt8) : be16 (ofBe16 hi lo) = [hi, lo] := by
  have hhi := hi.toNat_lt
  have hlo := lo.toNat_lt
  simp only [be16, ofBe16, UInt16.toNat_ofNat', List.cons.injEq, and_true]
  constructor <;> apply UInt8.toNat_inj.mp <;> simp only [UInt8.toNat_ofNat'] <;> omega

@[simp] theorem take16_be16 (n : UInt16) (rest : List UInt8) :
    take16 (be16 n ++ rest) = some (n, rest) := by
  simp only [be16, List.cons_append, List.nil_append, take16, ofBe16_be16]

@[simp] theorem take32_be32 (n : UInt32) (rest : List UInt8) :
    take32 (be32 n ++ rest) = some (n, rest) := by
  simp only [be32, List.cons_append, List.nil_append, take32, ofBe32_be32]

@[simp] theorem takeN_append (bytes rest : List UInt8) :
    takeN bytes.length (bytes ++ rest) = some (bytes, rest) := by
  simp [takeN]

end Bytes
