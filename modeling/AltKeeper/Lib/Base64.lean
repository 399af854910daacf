import AltKeeper.Lib.Bits
import Mathlib.Data.List.Basic

-- Base64 with the standard alphabet: six bits a character, the last ones filled with zeros, and
-- `=` up to a multiple of four characters.
namespace Base64

open AltKeeper

def alphabet : List Char := "ABCDEFGHIJKLMNOPQRSTUVWXYZabcdefghijklmnopqrstuvwxyz0123456789+/".toList

def symbol (n : Nat) : Char := alphabet.getD n '='

def sextets (bytes : List UInt8) : List (List Bool) :=
  let count := (8 * bytes.length + 5) / 6
  Bits.chunks 6 count
    (Bits.ofBytes bytes ++ List.replicate (6 * count - 8 * bytes.length) false)

-- The value of a character is its place in the alphabet.
def place (c : UInt8) : Nat := alphabet.idxOf (Char.ofNat c.toNat)

def sextet (c : UInt8) : List Bool := Bits.ofNat 6 (place c)

-- The reference decoder: the six bits of every character one after the other, in whole bytes.
def decode (cs : List UInt8) : Option (List UInt8) :=
  if cs.all fun c => alphabet.contains (Char.ofNat c.toNat) then
    some (Bits.toBytes (cs.flatMap sextet))
  else none

-- The text without its padding.
def bare (bytes : List UInt8) : List Char := (sextets bytes).map fun bits => symbol (Bits.toNat bits)

def encode (bytes : List UInt8) : List Char :=
  bare bytes ++ List.replicate ((4 - (bare bytes).length % 4) % 4) '='

example : encode [] = [] := by decide

example : encode [0x66, 0x6F, 0x6F, 0x62] = "Zm9vYg==".toList := by decide

theorem length_padded (bytes : List UInt8) :
    (Bits.ofBytes bytes ++
      List.replicate (6 * ((8 * bytes.length + 5) / 6) - 8 * bytes.length) false).length =
      6 * ((8 * bytes.length + 5) / 6) := by
  rw [List.length_append, Bits.length_ofBytes, List.length_replicate]
  omega

theorem length_sextet {bytes : List UInt8} : ∀ bits ∈ sextets bytes, bits.length = 6 :=
  Bits.length_of_mem_chunks (length_padded bytes)

theorem flatten_sextets (bytes : List UInt8) : ∃ zeros : List Bool, zeros.length < 8 ∧
    (sextets bytes).flatten = Bits.ofBytes bytes ++ zeros := by
  refine ⟨_, ?_, Bits.flatten_chunks (length_padded bytes)⟩
  rw [List.length_replicate]
  omega

theorem toNat_sextet_lt {bytes : List UInt8} {bits : List Bool} (h : bits ∈ sextets bytes) :
    Bits.toNat bits < 64 := by
  have hlt := Bits.toNat_lt bits
  rwa [length_sextet bits h] at hlt

theorem place_lt {c : UInt8} (h : Char.ofNat c.toNat ∈ alphabet) : place c < 64 :=
  List.idxOf_lt_length_of_mem h

-- Every symbol is in the alphabet, at its own place.
theorem place_symbol {n : Nat} (h : n < 64) : place (UInt8.ofNat (symbol n).toNat) = n := by
  have hall : ∀ n < 64, place (UInt8.ofNat (symbol n).toNat) = n := by decide +kernel
  exact hall n h

theorem symbol_mem {n : Nat} (h : n < 64) :
    Char.ofNat (UInt8.ofNat (symbol n).toNat).toNat ∈ alphabet := by
  apply List.idxOf_lt_length_iff.mp
  change place (UInt8.ofNat (symbol n).toNat) < 64
  rwa [place_symbol h]

theorem symbol_place {c : UInt8} (h : Char.ofNat c.toNat ∈ alphabet) :
    symbol (place c) = Char.ofNat c.toNat := by
  rw [symbol, List.getD_eq_getElem _ _ (place_lt h)]
  exact List.getElem_idxOf (place_lt h)

theorem sextet_symbol {bytes : List UInt8} {bits : List Bool} (h : bits ∈ sextets bytes) :
    sextet (UInt8.ofNat (symbol (Bits.toNat bits)).toNat) = bits := by
  have hsix := Bits.ofNat_toNat bits
  rw [length_sextet bits h] at hsix
  rw [sextet, place_symbol (toNat_sextet_lt h), hsix]

theorem all_symbols {cs : List UInt8} :
    (cs.all fun c => alphabet.contains (Char.ofNat c.toNat)) = true ↔
      ∀ c ∈ cs, Char.ofNat c.toNat ∈ alphabet := by
  rw [List.all_eq_true]
  exact forall₂_congr fun c _ => List.contains_iff_mem

theorem length_decode {cs out : List UInt8} (h : decode cs = some out) :
    out.length = 6 * cs.length / 8 := by
  have hbits : (cs.flatMap sextet).length = 6 * cs.length := by
    have hsix : ∀ c ∈ cs, (sextet c).length = 6 := fun c _ => Bits.length_ofNat 6 (place c)
    rw [List.length_flatMap, List.map_congr_left hsix, List.map_const', List.sum_replicate_nat,
      Nat.mul_comm]
  rw [decode] at h
  split_ifs at h
  rw [← Option.some.inj h, Bits.length_toBytes, hbits]

-- The reference reads back every text of base64.
theorem decode_bare (bytes : List UInt8) :
    decode ((bare bytes).map fun c => UInt8.ofNat c.toNat) = some bytes := by
  have hmem : ∀ c ∈ (bare bytes).map (fun c => UInt8.ofNat c.toNat),
      Char.ofNat c.toNat ∈ alphabet := by
    intro c hc
    obtain ⟨d, hd, rfl⟩ := List.mem_map.mp hc
    obtain ⟨bits, hbits, rfl⟩ := List.mem_map.mp hd
    exact symbol_mem (toNat_sextet_lt hbits)
  have hflat : ((bare bytes).map fun c => UInt8.ofNat c.toNat).flatMap sextet =
      (sextets bytes).flatten := by
    rw [bare, List.map_map, List.flatMap_map, ← List.flatMap_id]
    exact List.flatMap_congr fun bits hbits => sextet_symbol hbits
  obtain ⟨zeros, hzeros, hbits⟩ := flatten_sextets bytes
  rw [decode, if_pos (all_symbols.mpr hmem), hflat, hbits, Bits.toBytes_ofBytes bytes hzeros]

end Base64
