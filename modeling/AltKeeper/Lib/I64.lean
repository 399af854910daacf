import Mathlib.Data.Int.Order.Basic

-- Signed numbers of 64 bits: an operation whose exact result does not fit is `none`.
namespace I64

abbrev Fits (n : Int) : Prop := -9223372036854775808 ≤ n ∧ n < 9223372036854775808

def fit (n : Int) : Option Int := if Fits n then some n else none

-- The same 64 bits of an unsigned number, read as a signed one.
def of_u64 (n : UInt64) : Int := Int.bmod n.toNat 18446744073709551616

def add (a b : Int) : Option Int := fit (a + b)

def sub (a b : Int) : Option Int := fit (a - b)

def mul (a b : Int) : Option Int := fit (a * b)

-- Towards zero.
def div (a b : Int) : Option Int := if b = 0 then none else fit (a.tdiv b)

-- The quotient of the remainder that is not negative.
def div_euclid (a b : Int) : Option Int := if b = 0 then none else fit (a / b)

def rem_euclid (a b : Int) : Option Int :=
  if b = 0 ∨ ¬ Fits (a / b) then none else some (a % b)

-- A computation goes on with the number of its first operation.
theorem bind_eq {α : Type} {x : Option Int} {n : Int} (h : x = some n) (f : Int → Option α) :
    (x >>= f) = f n := by
  rw [h]
  rfl

section Exact

variable {a b c : Int}

theorem of_u64_eq {n : UInt64} (h : n.toNat < 9223372036854775808) : of_u64 n = n.toNat :=
  Int.bmod_eq_of_le (by omega) (by omega)

theorem fit_eq (h : Fits c) : fit c = some c := if_pos h

theorem add_eq (h : a + b = c) (hc : Fits c) : add a b = some c := by rw [add, h, fit_eq hc]

theorem sub_eq (h : a - b = c) (hc : Fits c) : sub a b = some c := by rw [sub, h, fit_eq hc]

theorem mul_eq (h : a * b = c) (hc : Fits c) : mul a b = some c := by rw [mul, h, fit_eq hc]

-- A divisor that is not negative keeps the sign, so both roundings are the one of natural numbers.
theorem div_eq (ha : 0 ≤ a) (hb : 0 < b) (h : a / b = c) (hc : Fits c) : div a b = some c := by
  rw [div, if_neg (by omega), Int.tdiv_eq_ediv_of_nonneg ha, h, fit_eq hc]

theorem div_euclid_eq (hb : 0 < b) (h : a / b = c) (hc : Fits c) : div_euclid a b = some c := by
  rw [div_euclid, if_neg (by omega), h, fit_eq hc]

theorem rem_euclid_eq (hb : 0 < b) (h : a % b = c) (hc : Fits (a / b)) : rem_euclid a b = some c := by
  rw [rem_euclid, if_neg (by omega), h]

end Exact

end I64
