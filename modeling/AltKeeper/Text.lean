import AltKeeper.Lib.Utf8
import AltKeeper.Lib.Split
import Mathlib.Algebra.Group.Nat.Defs

namespace AltKeeper

abbrev Octets := List UInt8

-- A text, as its characters; its bytes are `Utf8.encode`.
abbrev Str := List Char

namespace Str

-- `s.len()` counts bytes.
def len (s : Str) : Nat := (Utf8.encode s).length

def to_ascii_lowercase (s : Str) : Str := s.map Char.toLower

-- Unicode's White_Space.
def is_whitespace (c : Char) : Bool :=
  let n := c.toNat
  (0x9 ≤ n && n ≤ 0xD) || n == 0x20 || n == 0x85 || n == 0xA0 || n == 0x1680 ||
    (0x2000 ≤ n && n ≤ 0x200A) || n == 0x2028 || n == 0x2029 || n == 0x202F || n == 0x205F || n == 0x3000

def trim (s : Str) : Str := ((s.dropWhile is_whitespace).reverse.dropWhile is_whitespace).reverse

def trim_matches (s : Str) (c : Char) : Str :=
  ((s.dropWhile (· == c)).reverse.dropWhile (· == c)).reverse

-- `&s[..n]`, which panics (`none`) when `n` does not end a character.
def slice_to : Str → Nat → Option Str
  | _, 0 => some []
  | [], _ + 1 => none
  | c :: s, n + 1 =>
      if c.utf8Size ≤ n + 1 then (slice_to s (n + 1 - c.utf8Size)).map (c :: ·) else none

-- One digit of a number that may not pass `max`.
def read_digit (max acc : Nat) (c : Char) : Option Nat :=
  let n := acc * 10 + (c.toNat - '0'.toNat)
  if c.isDigit ∧ n ≤ max then some n else none

def drop_plus : Str → Str
  | '+' :: rest => rest
  | s => s

-- `s.parse()` into an unsigned integer type whose largest value is `max`: an optional `+`, then
-- decimal digits, leading zeros among them.
def parse_unsigned (max : Nat) (s : Str) : Option Nat :=
  let digits := s.drop_plus
  if digits = [] then none else digits.foldlM (read_digit max) 0

def parse_u8 (s : Str) : Option UInt8 := (parse_unsigned 255 s).map UInt8.ofNat

-- `s.parse::<i32>()`.
def parse_i32 : Str → Option Int
  | '-' :: digits =>
      if digits = [] then none
      else (digits.foldlM (read_digit (2 ^ 31)) 0).map fun n => -(n : Int)
  | s => (parse_unsigned (2 ^ 31 - 1) s).map fun n => (n : Int)

def contains : Str → Str → Bool
  | [], word => word.isEmpty
  | c :: s, word => word.isPrefixOf (c :: s) || contains s word

def split_once : Str → Char → Option (Str × Str)
  | [], _ => none
  | d :: s, c => if d = c then some ([], s) else (split_once s c).map fun (before, after) => (d :: before, after)

-- A line ends with `\n` or `\r\n`; the last one may have no end.
def lines (s : Str) : List Str :=
  let pieces := s.splitOn '\n'
  pieces.dropLast.map (fun line => if line.getLast? = some '\r' then line.dropLast else line) ++
    pieces.getLast?.toList.filter (· ≠ [])

section Lengths

theorem len_append (s t : Str) : Str.len (s ++ t) = s.len + t.len := by
  unfold len
  rw [Utf8.encode_append, List.length_append]

theorem len_le_of_mem_splitOn {s label : Str} {c : Char} (h : label ∈ s.splitOn c) :
    label.len ≤ s.len := by
  obtain ⟨before, after, rfl⟩ := Split.infix_of_mem h
  rw [len_append, len_append]
  omega

theorem slice_to_len {s t : Str} {n : Nat} (h : s.slice_to n = some t) : t.len = n := by
  induction s, n using slice_to.induct generalizing t with
  | case1 s =>
      rw [slice_to] at h
      cases h
      rfl
  | case2 n => simp [slice_to] at h
  | case3 c s n hfit ih =>
      rw [slice_to, if_pos hfit] at h
      obtain ⟨t, ht, rfl⟩ := Option.map_eq_some_iff.mp h
      have := ih ht
      unfold len at this ⊢
      rw [Utf8.length_encode_cons]
      omega
  | case4 c s n hfit =>
      rw [slice_to, if_neg hfit] at h
      cases h

theorem trim_matches_eq_self {s : Str} {c : Char} (hhead : s.head? ≠ some c)
    (hlast : s.getLast? ≠ some c) : s.trim_matches c = s := by
  have hdrop : ∀ t : Str, t.head? ≠ some c → t.dropWhile (· == c) = t := by
    intro t ht
    cases t with
    | nil => rfl
    | cons d t =>
        rw [List.dropWhile_cons_of_neg]
        simpa using ht
  unfold trim_matches
  rw [hdrop s hhead, hdrop s.reverse (by rwa [List.head?_reverse]), List.reverse_reverse]

end Lengths

section Lowercase

theorem toLower_cases (c : Char) :
    c.toLower = c ∨ (65 ≤ c.toNat ∧ c.toNat ≤ 90 ∧ c.toLower.toNat = c.toNat + 32) := by
  unfold Char.toLower
  split
  · rename_i h
    have h1 : 65 ≤ c.toNat := UInt32.le_iff_toNat_le.mp h.1
    have h2 : c.val.toNat ≤ 90 := UInt32.le_iff_toNat_le.mp h.2
    refine .inr ⟨h1, h2, ?_⟩
    have h3 : ('a'.val - 'A'.val).toNat = 32 := by decide
    show (c.val + ('a'.val - 'A'.val)).toNat = c.val.toNat + 32
    rw [UInt32.toNat_add, h3]
    omega
  · exact .inl rfl

theorem toLower_toLower (c : Char) : c.toLower.toLower = c.toLower := by
  rcases toLower_cases c with h | ⟨h1, h2, h3⟩
  · rw [h, h]
  · rcases toLower_cases c.toLower with h | ⟨h4, h5, h6⟩
    · exact h
    · omega

-- A character that is no ASCII letter comes from itself only.
theorem toLower_eq_iff {x : Char} (hupper : ¬ (65 ≤ x.toNat ∧ x.toNat ≤ 90))
    (hlower : ¬ (97 ≤ x.toNat ∧ x.toNat ≤ 122)) (c : Char) : c.toLower = x ↔ c = x := by
  constructor
  · rintro rfl
    rcases toLower_cases c with h | ⟨h1, h2, h3⟩
    · exact h.symm
    · omega
  · rintro rfl
    rcases toLower_cases c with h | ⟨h1, h2, h3⟩
    · exact h
    · omega

theorem toLower_eq_self_iff (c : Char) : c.toLower = c ↔ c.isUpper = false := by
  have hupper : c.isUpper = true ↔ 65 ≤ c.toNat ∧ c.toNat ≤ 90 := by
    unfold Char.isUpper
    simp only [decide_eq_true_eq, ge_iff_le, UInt32.le_iff_toNat_le]
    exact Iff.rfl
  rw [← Bool.not_eq_true, hupper]
  constructor
  · rintro hsame ⟨hlow, hhigh⟩
    unfold Char.toLower at hsame
    rw [dif_pos ⟨UInt32.le_iff_toNat_le.mpr hlow, UInt32.le_iff_toNat_le.mpr hhigh⟩] at hsame
    have hval := congrArg (fun d : Char => d.val.toNat) hsame
    have h32 : ('a'.val - 'A'.val).toNat = 32 := by decide
    have hc : c.val.toNat = c.toNat := rfl
    simp only [UInt32.toNat_add, h32] at hval
    omega
  · intro hout
    exact (toLower_cases c).resolve_right fun h => hout ⟨h.1, h.2.1⟩

theorem utf8Size_toLower (c : Char) : c.toLower.utf8Size = c.utf8Size := by
  rcases toLower_cases c with h | ⟨h1, h2, h3⟩
  · rw [h]
  · have hone : ∀ d : Char, d.toNat ≤ 127 → d.utf8Size = 1 := fun d hd => by
      rw [Char.utf8Size_eq_one_iff, UInt32.le_iff_toNat_le]
      exact hd
    rw [hone c (by omega), hone c.toLower (by omega)]

theorem to_ascii_lowercase_append (s t : Str) :
    to_ascii_lowercase (s ++ t) = s.to_ascii_lowercase ++ t.to_ascii_lowercase := List.map_append ..

theorem to_ascii_lowercase_idem (s : Str) :
    s.to_ascii_lowercase.to_ascii_lowercase = s.to_ascii_lowercase := by
  unfold to_ascii_lowercase
  rw [List.map_map]
  exact List.map_congr_left fun c _ => toLower_toLower c

theorem to_ascii_lowercase_eq_self_iff (s : Str) :
    s.to_ascii_lowercase = s ↔ ∀ c ∈ s, c.isUpper = false := by
  constructor
  · intro h c hc
    exact (toLower_eq_self_iff c).mp (List.map_eq_map_iff.mp (h.trans (List.map_id s).symm) c hc)
  · intro h
    have hmap := List.map_congr_left fun c hc => (toLower_eq_self_iff c).mpr (h c hc)
    exact hmap.trans (List.map_id s)

theorem len_to_ascii_lowercase (s : Str) : s.to_ascii_lowercase.len = s.len := by
  induction s with
  | nil => rfl
  | cons c s ih =>
      unfold len to_ascii_lowercase at ih ⊢
      rw [List.map_cons, Utf8.length_encode_cons, Utf8.length_encode_cons, utf8Size_toLower, ih]

theorem length_to_ascii_lowercase (s : Str) : s.to_ascii_lowercase.length = s.length :=
  List.length_map ..

theorem splitOn_to_ascii_lowercase (s : Str) :
    s.to_ascii_lowercase.splitOn '.' = (s.splitOn '.').map to_ascii_lowercase :=
  Split.map (toLower_eq_iff (by decide) (by decide)) s

end Lowercase

end Str

end AltKeeper
