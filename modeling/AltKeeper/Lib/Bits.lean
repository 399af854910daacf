import Mathlib.Data.List.Induction
import Mathlib.Data.Nat.Bitwise

-- Numbers and bytes as their bits, the highest one first.
namespace AltKeeper.Bits

def ofNat : Nat → Nat → List Bool
  | 0, _ => []
  | width + 1, n => n.testBit width :: ofNat width n

def toNat (bits : List Bool) : Nat := bits.foldl (fun acc b => 2 * acc + b.toNat) 0

def ofBytes (bytes : List UInt8) : List Bool := bytes.flatMap fun b => ofNat 8 b.toNat

def chunks {α : Type} (size : Nat) : Nat → List α → List (List α)
  | 0, _ => []
  | count + 1, xs => xs.take size :: chunks size count (xs.drop size)

-- The whole bytes; fewer than eight bits at the end are left out.
def toBytes (bits : List Bool) : List UInt8 :=
  (chunks 8 (bits.length / 8) bits).map fun chunk => UInt8.ofNat (toNat chunk)

section Numbers

@[simp] theorem length_ofNat (width n : Nat) : (ofNat width n).length = width := by
  induction width with
  | zero => rfl
  | succ width ih => rw [ofNat, List.length_cons, ih]

theorem toNat_concat (bits : List Bool) (b : Bool) : toNat (bits ++ [b]) = 2 * toNat bits + b.toNat := by
  rw [toNat, List.foldl_append]
  rfl

theorem toNat_append (xs ys : List Bool) :
    toNat (xs ++ ys) = toNat xs * 2 ^ ys.length + toNat ys := by
  induction ys using List.reverseRecOn with
  | nil => simp [toNat]
  | append_singleton ys b ih =>
      rw [← List.append_assoc, toNat_concat, ih, toNat_concat, List.length_append,
        List.length_singleton, Nat.pow_succ]
      rw [Nat.mul_add, ← Nat.mul_assoc, ← Nat.mul_assoc, Nat.add_assoc]
      have hmul : 2 * toNat xs * 2 ^ ys.length = toNat xs * 2 ^ ys.length * 2 := by
        rw [Nat.mul_comm 2, Nat.mul_right_comm]
      rw [hmul]

theorem toNat_lt (bits : List Bool) : toNat bits < 2 ^ bits.length := by
  induction bits using List.reverseRecOn with
  | nil => simp [toNat]
  | append_singleton bits b ih =>
      have hb := Bool.toNat_le b
      rw [toNat_concat, List.length_append, List.length_singleton, Nat.pow_succ]
      omega

theorem toNat_ofNat (width n : Nat) : toNat (ofNat width n) = n % 2 ^ width := by
  induction width with
  | zero => simp [ofNat, toNat, Nat.mod_one]
  | succ width ih =>
      have hone : toNat [n.testBit width] = n / 2 ^ width % 2 := by
        simp [toNat, Nat.toNat_testBit]
      rw [ofNat, ← List.singleton_append, toNat_append, ih, length_ofNat, hone, Nat.mod_pow_succ,
        Nat.add_comm, Nat.mul_comm]

theorem toNat_injective {xs ys : List Bool} (hlen : xs.length = ys.length)
    (h : toNat xs = toNat ys) : xs = ys := by
  induction xs using List.reverseRecOn generalizing ys with
  | nil => exact (List.length_eq_zero_iff.mp hlen.symm).symm
  | append_singleton xs b ih =>
      rcases List.eq_nil_or_concat ys with rfl | ⟨ys', c, rfl⟩
      · simp at hlen
      · rw [List.concat_eq_append] at hlen h ⊢
        rw [toNat_concat, toNat_concat] at h
        have hb := Bool.toNat_le b
        have hc := Bool.toNat_le c
        have hlast : b = c := by
          have hbits : b.toNat = c.toNat := by omega
          cases b <;> cases c <;> first | rfl | cases hbits
        have hrest : xs = ys' := by
          refine ih (by simpa using hlen) ?_
          rw [hlast] at h
          omega
        rw [hlast, hrest]

theorem ofNat_toNat (bits : List Bool) : ofNat bits.length (toNat bits) = bits := by
  apply toNat_injective (length_ofNat _ _)
  rw [toNat_ofNat, Nat.mod_eq_of_lt (toNat_lt bits)]

theorem ofNat_mod (width n : Nat) : ofNat width (n % 2 ^ width) = ofNat width n := by
  apply toNat_injective
  · rw [length_ofNat, length_ofNat]
  · rw [toNat_ofNat, toNat_ofNat, Nat.mod_mod]

theorem ofNat_add (high low n : Nat) :
    ofNat (high + low) n = ofNat high (n / 2 ^ low) ++ ofNat low n := by
  induction high with
  | zero =>
      rw [Nat.zero_add]
      rfl
  | succ high ih =>
      rw [Nat.succ_add, ofNat, ih, ofNat, List.cons_append, Nat.testBit_div_two_pow, Nat.add_comm]

theorem toNat_take (bits : List Bool) (count : Nat) :
    toNat (bits.take count) = toNat bits / 2 ^ (bits.length - count) := by
  have hlt := toNat_lt (bits.drop count)
  have happ := toNat_append (bits.take count) (bits.drop count)
  rw [List.length_drop] at hlt happ
  rw [List.take_append_drop] at happ
  rw [happ, Nat.mul_comm, Nat.mul_add_div (Nat.two_pow_pos _), Nat.div_eq_of_lt hlt, Nat.add_zero]

-- The first bits of two words are the same when what is left of them, shifted down, is.
theorem take_eq_take_iff {xs ys : List Bool} (hlen : xs.length = ys.length) (count : Nat) :
    xs.take count = ys.take count ↔
      toNat xs / 2 ^ (xs.length - count) = toNat ys / 2 ^ (xs.length - count) := by
  have hy := toNat_take ys count
  rw [← hlen] at hy
  rw [← toNat_take, ← hy]
  constructor
  · exact congrArg toNat
  · intro h
    exact toNat_injective (by rw [List.length_take, List.length_take, hlen]) h

end Numbers

section Bytes

theorem length_ofBytes (bytes : List UInt8) : (ofBytes bytes).length = 8 * bytes.length := by
  induction bytes with
  | nil => rfl
  | cons b bytes ih =>
      unfold ofBytes at ih ⊢
      rw [List.flatMap_cons, List.length_append, ih, length_ofNat, List.length_cons]
      omega

theorem ofBytes_cons (b : UInt8) (bytes : List UInt8) :
    ofBytes (b :: bytes) = ofNat 8 b.toNat ++ ofBytes bytes := List.flatMap_cons

theorem ofBytes_append (xs ys : List UInt8) : ofBytes (xs ++ ys) = ofBytes xs ++ ofBytes ys :=
  List.flatMap_append

theorem ofBytes_singleton (b : UInt8) : ofBytes [b] = ofNat 8 b.toNat :=
  List.flatMap_singleton _ b

theorem flatten_chunks {α : Type} {size count : Nat} {xs : List α} (h : xs.length = size * count) :
    (chunks size count xs).flatten = xs := by
  induction count generalizing xs with
  | zero =>
      have : xs = [] := by simpa using h
      rw [this]
      rfl
  | succ count ih =>
      have hrest : (xs.drop size).length = size * count := by
        rw [List.length_drop, h, Nat.mul_succ, Nat.add_sub_cancel]
      rw [chunks, List.flatten_cons, ih hrest, List.take_append_drop]

theorem length_of_mem_chunks {α : Type} {size count : Nat} {xs : List α}
    (h : xs.length = size * count) : ∀ chunk ∈ chunks size count xs, chunk.length = size := by
  induction count generalizing xs with
  | zero => simp [chunks]
  | succ count ih =>
      have hrest : (xs.drop size).length = size * count := by
        rw [List.length_drop, h, Nat.mul_succ, Nat.add_sub_cancel]
      rw [chunks, List.forall_mem_cons]
      refine ⟨?_, ih hrest⟩
      rw [List.length_take, h, Nat.mul_succ]
      omega

theorem length_toBytes (bits : List Bool) : (toBytes bits).length = bits.length / 8 := by
  have hcount : ∀ (count : Nat) (xs : List Bool), (chunks 8 count xs).length = count := by
    intro count
    induction count with
    | zero => exact fun _ => rfl
    | succ count ih => exact fun xs => congrArg (· + 1) (ih (xs.drop 8))
  rw [toBytes, List.length_map, hcount]

theorem toBytes_of_short {bits : List Bool} (h : bits.length < 8) : toBytes bits = [] := by
  rw [toBytes, Nat.div_eq_of_lt h]
  rfl

theorem toBytes_append {chunk : List Bool} (h : chunk.length = 8) (bits : List Bool) :
    toBytes (chunk ++ bits) = UInt8.ofNat (toNat chunk) :: toBytes bits := by
  have hcount : (chunk ++ bits).length / 8 = bits.length / 8 + 1 := by
    rw [List.length_append, h]
    omega
  rw [toBytes, hcount, chunks, List.take_left' h, List.drop_left' h]
  rfl

theorem toBytes_ofBytes (bytes : List UInt8) {bits : List Bool} (h : bits.length < 8) :
    toBytes (ofBytes bytes ++ bits) = bytes := by
  induction bytes with
  | nil => exact toBytes_of_short h
  | cons b bytes ih =>
      rw [ofBytes_cons, List.append_assoc, toBytes_append (length_ofNat 8 _), ih, toNat_ofNat,
        Nat.mod_eq_of_lt b.toNat_lt, UInt8.ofNat_toNat]

end Bytes

end AltKeeper.Bits
