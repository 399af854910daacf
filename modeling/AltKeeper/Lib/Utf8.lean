import AltKeeper.Lib.Split
import Mathlib.Data.List.Basic
import Mathlib.Data.Nat.Basic

-- UTF-8 over byte lists: the encoder, and the decoder that never fails but puts U+FFFD in
-- place of every ill-formed sequence (its longest part that could still begin a character).
namespace Utf8

def encode (s : List Char) : List UInt8 := s.flatMap String.utf8EncodeChar

def REPLACEMENT : Char := Char.ofNat 0xFFFD

-- A character that has begun: how many bytes it still needs, the range of the next one, and
-- the bits read so far.
structure Pending where
  need : Nat
  low : Nat
  high : Nat
  bits : Nat

inductive Lead where
  | char (c : Char)
  | more (pending : Pending)
  | bad

def lead (b : UInt8) : Lead :=
  let n := b.toNat
  if n < 0x80 then .char (Char.ofNat n)
  else if n < 0xC2 then .bad
  else if n < 0xE0 then .more ⟨1, 0x80, 0xBF, n - 0xC0⟩
  else if n < 0xF0 then
    .more ⟨2, if n = 0xE0 then 0xA0 else 0x80, if n = 0xED then 0x9F else 0xBF, n - 0xE0⟩
  else if n < 0xF5 then
    .more ⟨3, if n = 0xF0 then 0x90 else 0x80, if n = 0xF4 then 0x8F else 0xBF, n - 0xF0⟩
  else .bad

def begin (b : UInt8) : List Char × Option Pending :=
  match lead b with
  | .char c => ([c], none)
  | .more p => ([], some p)
  | .bad => ([REPLACEMENT], none)

def step : Option Pending → UInt8 → List Char × Option Pending
  | none, b => begin b
  | some p, b =>
      if p.low ≤ b.toNat ∧ b.toNat ≤ p.high then
        if p.need = 1 then ([Char.ofNat (p.bits * 64 + (b.toNat - 0x80))], none)
        else ([], some ⟨p.need - 1, 0x80, 0xBF, p.bits * 64 + (b.toNat - 0x80)⟩)
      else
        -- the byte does not continue the character: it is read again as a first byte
        (REPLACEMENT :: (begin b).1, (begin b).2)

def lossyFrom : Option Pending → List UInt8 → List Char
  | none, [] => []
  | some _, [] => [REPLACEMENT]
  | state, b :: rest => (step state b).1 ++ lossyFrom (step state b).2 rest

def lossy (bytes : List UInt8) : List Char := lossyFrom none bytes

-- The text of bytes that are the encoding of one.
def decode? (bytes : List UInt8) : Option (List Char) :=
  if encode (lossy bytes) = bytes then some (lossy bytes) else none

section Encode

@[simp] theorem encode_nil : encode [] = [] := rfl

@[simp] theorem encode_cons (c : Char) (s : List Char) :
    encode (c :: s) = String.utf8EncodeChar c ++ encode s := rfl

@[simp] theorem encode_append (s t : List Char) : encode (s ++ t) = encode s ++ encode t := by
  simp [encode]

theorem length_encode_cons (c : Char) (s : List Char) :
    (encode (c :: s)).length = c.utf8Size + (encode s).length := by simp

theorem length_le_encode (s : List Char) : s.length ≤ (encode s).length := by
  induction s with
  | nil => simp
  | cons c s ih =>
      have := c.utf8Size_pos
      rw [length_encode_cons, List.length_cons]
      omega

theorem encode_eq_nil {s : List Char} : encode s = [] ↔ s = [] := by
  constructor
  · intro h
    have := length_le_encode s
    rw [h] at this
    exact List.length_eq_zero_iff.mp (by simpa using this)
  · rintro rfl
    rfl

-- An ASCII character is its own single byte.
theorem encodeChar_ascii {c : Char} (h : c.toNat < 0x80) :
    String.utf8EncodeChar c = [UInt8.ofNat c.toNat] := by
  have hle : c.val.toNat ≤ 127 := Nat.le_of_lt_succ h
  simp only [String.utf8EncodeChar, if_pos hle]
  rfl

theorem encode_ascii {s : List Char} (h : ∀ c ∈ s, c.toNat < 0x80) :
    encode s = s.map fun c => UInt8.ofNat c.toNat := by
  induction s with
  | nil => rfl
  | cons c s ih =>
      rw [encode_cons, encodeChar_ascii (h c List.mem_cons_self),
        ih fun d hd => h d (List.mem_cons_of_mem _ hd)]
      rfl

-- No byte of any other character is one of ASCII.
theorem wide_of_mem_encodeChar {c : Char} (h : 0x80 ≤ c.toNat) {b : UInt8}
    (hb : b ∈ String.utf8EncodeChar c) : 0x80 ≤ b.toNat := by
  have hwide : ∀ m, 0x80 ≤ m → m < 0x100 → 0x80 ≤ (UInt8.ofNat m).toNat := by
    intro m hlow hhigh
    rwa [UInt8.toNat_ofNat', Nat.mod_eq_of_lt hhigh]
  have hn : c.val.toNat = c.toNat := rfl
  have hmore : ¬ c.toNat ≤ 127 := by omega
  unfold String.utf8EncodeChar at hb
  simp only [hn, if_neg hmore] at hb
  split_ifs at hb
  all_goals
    simp only [List.mem_cons, List.not_mem_nil, or_false] at hb
  · rcases hb with rfl | rfl <;> exact hwide _ (by omega) (by omega)
  · rcases hb with rfl | rfl | rfl <;> exact hwide _ (by omega) (by omega)
  · rcases hb with rfl | rfl | rfl | rfl <;> exact hwide _ (by omega) (by omega)

-- What filters ASCII bytes only filters the characters that they are.
theorem filter_encode {p : UInt8 → Bool} {q : Char → Bool}
    (hascii : ∀ c : Char, c.toNat < 0x80 → p (UInt8.ofNat c.toNat) = q c)
    (hbyte : ∀ b : UInt8, 0x80 ≤ b.toNat → p b = true)
    (hchar : ∀ c : Char, 0x80 ≤ c.toNat → q c = true) (s : List Char) :
    (encode s).filter p = encode (s.filter q) := by
  induction s with
  | nil => rfl
  | cons c s ih =>
      rw [encode_cons, List.filter_append, ih]
      by_cases hc : c.toNat < 0x80
      · rw [encodeChar_ascii hc, List.filter_singleton, hascii c hc]
        cases hq : q c with
        | false => rw [List.filter_cons_of_neg (by simp [hq])]; rfl
        | true => rw [List.filter_cons_of_pos hq, encode_cons, encodeChar_ascii hc]; rfl
      · have hwide : 0x80 ≤ c.toNat := Nat.le_of_not_lt hc
        have hall : (String.utf8EncodeChar c).filter p = String.utf8EncodeChar c :=
          List.filter_eq_self.mpr fun b hb => hbyte b (wide_of_mem_encodeChar hwide hb)
        rw [hall, List.filter_cons_of_pos (hchar c hwide), encode_cons]

theorem length_encode_ascii {s : List Char} (h : ∀ c ∈ s, c.toNat < 0x80) :
    (encode s).length = s.length := by
  rw [encode_ascii h, List.length_map]

end Encode

section Decode

-- The bytes that end a begun character, giving `c`.
inductive Completes (c : Char) : Pending → List UInt8 → Prop where
  | last {p : Pending} {b : UInt8} (hb : p.low ≤ b.toNat ∧ b.toNat ≤ p.high) (hn : p.need = 1)
      (hc : Char.ofNat (p.bits * 64 + (b.toNat - 0x80)) = c) : Completes c p [b]
  | next {p : Pending} {b : UInt8} {rest : List UInt8} (hb : p.low ≤ b.toNat ∧ b.toNat ≤ p.high)
      (hn : p.need ≠ 1)
      (tail : Completes c ⟨p.need - 1, 0x80, 0xBF, p.bits * 64 + (b.toNat - 0x80)⟩ rest) :
      Completes c p (b :: rest)

theorem lossyFrom_cons (state : Option Pending) (b : UInt8) (rest : List UInt8) :
    lossyFrom state (b :: rest) = (step state b).1 ++ lossyFrom (step state b).2 rest := by
  cases state <;> rfl

theorem lossyFrom_more {b : UInt8} {p : Pending} (h : lead b = .more p) (rest : List UInt8) :
    lossyFrom none (b :: rest) = lossyFrom (some p) rest := by
  simp [lossyFrom_cons, step, begin, h]

theorem Completes.lossyFrom {c : Char} {p : Pending} {bytes : List UInt8} (h : Completes c p bytes)
    (rest : List UInt8) : lossyFrom (some p) (bytes ++ rest) = c :: lossyFrom none rest := by
  induction h with
  | last hb hn hc => simp [lossyFrom_cons, step, hb, hn, hc]
  | next hb hn tail ih => simpa [lossyFrom_cons, step, hb, hn] using ih

-- Cut short, a begun character is one replacement.
theorem Completes.lossyFrom_take {c : Char} {p : Pending} {bytes : List UInt8}
    (h : Completes c p bytes) (count : Nat) (hcount : count < bytes.length) :
    Utf8.lossyFrom (some p) (bytes.take count) = [REPLACEMENT] := by
  induction h generalizing count with
  | last hb hn hc =>
      obtain rfl : count = 0 := by simpa using hcount
      rfl
  | next hb hn tail ih =>
      cases count with
      | zero => rfl
      | succ count =>
          have := ih count (by simpa using hcount)
          simpa [lossyFrom_cons, step, hb, hn] using this

private theorem lead_two {b : UInt8} {m : Nat} (hb : b.toNat = m + 192) (h2 : 2 ≤ m) (h32 : m < 32) :
    lead b = .more ⟨1, 0x80, 0xBF, m⟩ := by
  simp only [lead, hb]
  rw [if_neg (by omega), if_neg (by omega), if_pos (by omega), Nat.add_sub_cancel]

private theorem lead_three {b : UInt8} {m : Nat} (hb : b.toNat = m + 224) (h16 : m < 16) :
    lead b = .more ⟨2, if m = 0 then 0xA0 else 0x80, if m = 13 then 0x9F else 0xBF, m⟩ := by
  simp only [lead, hb]
  rw [if_neg (by omega), if_neg (by omega), if_neg (by omega), if_pos (by omega), Nat.add_sub_cancel]
  simp [show m + 224 = 237 ↔ m = 13 by omega]

private theorem lead_four {b : UInt8} {m : Nat} (hb : b.toNat = m + 240) (h5 : m < 5) :
    lead b = .more ⟨3, if m = 0 then 0x90 else 0x80, if m = 4 then 0x8F else 0xBF, m⟩ := by
  simp only [lead, hb]
  rw [if_neg (by omega), if_neg (by omega), if_neg (by omega), if_neg (by omega), if_pos (by omega),
    Nat.add_sub_cancel]
  simp [show m + 240 = 244 ↔ m = 4 by omega]

theorem encodeChar_cases (c : Char) :
    (∃ b, String.utf8EncodeChar c = [b] ∧ lead b = .char c) ∨
      ∃ b p rest, String.utf8EncodeChar c = b :: rest ∧ lead b = .more p ∧ Completes c p rest := by
  have hv : c.toNat < 0xD800 ∨ 0xDFFF < c.toNat ∧ c.toNat < 0x110000 := c.valid
  have hc : Char.ofNat c.toNat = c := Char.ofNat_toNat c
  have hn : c.val.toNat = c.toNat := rfl
  generalize c.toNat = n at hv hc hn
  have hbyte : ∀ m, m < 256 → (UInt8.ofNat m).toNat = m := fun m hm => by simpa using hm
  by_cases h1 : n ≤ 127
  · refine .inl ⟨UInt8.ofNat n, by simp [String.utf8EncodeChar, hn, h1], ?_⟩
    simp only [lead, hbyte n (by omega), if_pos (show n < 0x80 by omega), hc]
  right
  by_cases h2 : n ≤ 2047
  · have ha := hbyte (n / 64 % 32 + 192) (by omega)
    have hb := hbyte (n % 64 + 128) (by omega)
    refine ⟨UInt8.ofNat (n / 64 % 32 + 192), _, [UInt8.ofNat (n % 64 + 128)],
      by simp only [String.utf8EncodeChar, hn, if_neg h1, if_pos h2],
      lead_two (ha.trans (by omega)) (by omega) (by omega : n / 64 < 32), .last ?_ rfl ?_⟩
    · simp only [hb]; omega
    · rw [hb, ← hc]; exact congrArg Char.ofNat (by simp only; omega)
  by_cases h3 : n ≤ 65535
  · have ha := hbyte (n / 4096 % 16 + 224) (by omega)
    have hb := hbyte (n / 64 % 64 + 128) (by omega)
    have hd := hbyte (n % 64 + 128) (by omega)
    refine ⟨UInt8.ofNat (n / 4096 % 16 + 224), _,
      [UInt8.ofNat (n / 64 % 64 + 128), UInt8.ofNat (n % 64 + 128)],
      by simp only [String.utf8EncodeChar, hn, if_neg h1, if_neg h2, if_pos h3],
      lead_three (ha.trans (by omega)) (by omega : n / 4096 < 16), .next ?_ (by simp) (.last ?_ rfl ?_)⟩
    · simp only [hb]; split <;> split <;> omega
    · simp only [hd]; omega
    · rw [hb, hd, ← hc]; exact congrArg Char.ofNat (by simp only; omega)
  · have ha := hbyte (n / 262144 % 8 + 240) (by omega)
    have hb := hbyte (n / 4096 % 64 + 128) (by omega)
    have hd := hbyte (n / 64 % 64 + 128) (by omega)
    have he := hbyte (n % 64 + 128) (by omega)
    refine ⟨UInt8.ofNat (n / 262144 % 8 + 240), _,
      [UInt8.ofNat (n / 4096 % 64 + 128), UInt8.ofNat (n / 64 % 64 + 128), UInt8.ofNat (n % 64 + 128)],
      by simp only [String.utf8EncodeChar, hn, if_neg h1, if_neg h2, if_neg h3],
      lead_four (ha.trans (by omega)) (by omega : n / 262144 < 5), .next ?_ (by simp)
        (.next ?_ (by simp) (.last ?_ rfl ?_))⟩
    · simp only [hb]; split <;> split <;> omega
    · simp only [hd]; omega
    · simp only [he]; omega
    · rw [hb, hd, he, ← hc]; exact congrArg Char.ofNat (by simp only; omega)

theorem lossyFrom_encodeChar (c : Char) (rest : List UInt8) :
    lossyFrom none (String.utf8EncodeChar c ++ rest) = c :: lossyFrom none rest := by
  rcases encodeChar_cases c with ⟨b, he, hb⟩ | ⟨b, p, tail, he, hb, hp⟩
  · simp [he, lossyFrom_cons, step, begin, hb]
  · rw [he, List.cons_append, lossyFrom_more hb]
    exact hp.lossyFrom rest

theorem lossyFrom_encode (s : List Char) (rest : List UInt8) :
    lossyFrom none (encode s ++ rest) = s ++ lossyFrom none rest := by
  induction s with
  | nil => rfl
  | cons c s ih => rw [encode_cons, List.append_assoc, lossyFrom_encodeChar, ih, List.cons_append]

-- Text that was encoded is read back as it was.
theorem lossy_encode (s : List Char) : lossy (encode s) = s := by
  simpa [lossy, lossyFrom] using lossyFrom_encode s []

theorem decode?_encode (s : List Char) : decode? (encode s) = some s := by
  rw [decode?, lossy_encode, if_pos rfl]

-- A character of which only a first part was kept is read back as one replacement.
theorem lossyFrom_encodeChar_take (c : Char) (count : Nat) (hpos : 0 < count)
    (hcount : count < c.utf8Size) :
    lossyFrom none ((String.utf8EncodeChar c).take count) = [REPLACEMENT] := by
  rw [← String.length_utf8EncodeChar] at hcount
  rcases encodeChar_cases c with ⟨b, he, hb⟩ | ⟨b, p, tail, he, hb, hp⟩
  · rw [he, List.length_singleton] at hcount
    omega
  · obtain ⟨k, rfl⟩ : ∃ k, count = k + 1 := ⟨count - 1, by omega⟩
    rw [he] at hcount
    rw [he, List.take_succ_cons, lossyFrom_more hb]
    exact hp.lossyFrom_take k (by simpa using hcount)

-- Encoded text cut at `count` bytes keeps the characters that end there or before, then one
-- replacement when the cut falls inside a character.
theorem lossy_encode_take (s : List Char) (count : Nat) (hcount : count < (encode s).length) :
    ∃ kept c rest, s = kept ++ c :: rest ∧ (encode kept).length ≤ count ∧
      count < (encode kept).length + c.utf8Size ∧
      lossy ((encode s).take count) =
        kept ++ if (encode kept).length = count then [] else [REPLACEMENT] := by
  induction s generalizing count with
  | nil => exact absurd hcount (Nat.not_lt_zero _)
  | cons c s ih =>
      have hsize := String.length_utf8EncodeChar c
      by_cases hc : count < c.utf8Size
      · refine ⟨[], c, s, rfl, Nat.zero_le _, by simpa using hc, ?_⟩
        rw [encode_cons, List.take_append_of_le_length (by omega)]
        by_cases hzero : count = 0
        · subst hzero
          rfl
        · rw [if_neg (fun h => hzero h.symm)]
          exact lossyFrom_encodeChar_take c count (by omega) hc
      · obtain ⟨k, rfl⟩ : ∃ k, count = c.utf8Size + k := ⟨count - c.utf8Size, by omega⟩
        have hk : k < (encode s).length := by
          rw [length_encode_cons] at hcount
          omega
        obtain ⟨kept, c', rest, rfl, hle, hlt, hlossy⟩ := ih k hk
        refine ⟨c :: kept, c', rest, rfl, ?_, ?_, ?_⟩
        · rw [length_encode_cons]
          omega
        · rw [length_encode_cons]
          omega
        · have htake : (encode (c :: (kept ++ c' :: rest))).take (c.utf8Size + k) =
              String.utf8EncodeChar c ++ (encode (kept ++ c' :: rest)).take k := by
            rw [encode_cons, List.take_append, hsize, List.take_of_length_le (by omega),
              Nat.add_sub_cancel_left]
          have heq : (encode (c :: kept)).length = c.utf8Size + k ↔ (encode kept).length = k := by
            rw [length_encode_cons]
            omega
          rw [htake, lossy, lossyFrom_encodeChar, ← lossy, hlossy]
          simp only [heq, List.cons_append]

private theorem begin_length (b : UInt8) :
    (begin b).1.length + (if (begin b).2.isSome then 1 else 0) = 1 := by
  unfold begin
  cases lead b <;> rfl

private theorem step_length (state : Option Pending) (b : UInt8) :
    (step state b).1.length + (if (step state b).2.isSome then 1 else 0) ≤
      1 + (if state.isSome then 1 else 0) := by
  cases state with
  | none => exact Nat.le_of_eq (begin_length b)
  | some p =>
      have := begin_length b
      unfold step
      dsimp only
      split
      · split <;> simp
      · simp only [List.length_cons, Option.isSome_some, if_true]
        omega

theorem lossyFrom_length_le (state : Option Pending) (bytes : List UInt8) :
    (lossyFrom state bytes).length ≤ bytes.length + if state.isSome then 1 else 0 := by
  induction bytes generalizing state with
  | nil => cases state <;> simp [lossyFrom]
  | cons b rest ih =>
      have hs := step_length state b
      have hr := ih (step state b).2
      rw [lossyFrom_cons, List.length_append, List.length_cons]
      omega

-- Every character read takes at least one byte.
theorem lossy_length_le (bytes : List UInt8) : (lossy bytes).length ≤ bytes.length := by
  simpa [lossy] using lossyFrom_length_le none bytes

theorem lossyFrom_some_ne_nil (p : Pending) (bytes : List UInt8) : lossyFrom (some p) bytes ≠ [] := by
  induction bytes generalizing p with
  | nil => simp [lossyFrom]
  | cons b rest ih =>
      rw [lossyFrom_cons]
      unfold step
      dsimp only
      split_ifs with hrange hneed
      · simp
      · simpa using ih _
      · simp

theorem lossy_cons_ne_nil (b : UInt8) (rest : List UInt8) : lossy (b :: rest) ≠ [] := by
  rw [lossy, lossyFrom_cons, step, begin]
  cases lead b with
  | char c => simp
  | bad => simp
  | more p => simpa using lossyFrom_some_ne_nil p rest

end Decode

section Ascii

-- What a begun character can still become is no ASCII character, nor is its next byte.
structure Pending.Wide (p : Pending) : Prop where
  low : 0x80 ≤ p.low
  bits : if p.need = 1 then 2 ≤ p.bits else 1 ≤ p.bits ∨ 0x82 ≤ p.low

theorem lead_wide {b : UInt8} {p : Pending} (h : lead b = .more p) : p.Wide := by
  unfold lead at h
  dsimp only at h
  by_cases h1 : b.toNat < 0x80
  · rw [if_pos h1] at h
    cases h
  rw [if_neg h1] at h
  by_cases h2 : b.toNat < 0xC2
  · rw [if_pos h2] at h
    cases h
  rw [if_neg h2] at h
  by_cases h3 : b.toNat < 0xE0
  · rw [if_pos h3] at h
    cases h
    exact ⟨Nat.le_refl _, show 2 ≤ b.toNat - 0xC0 by omega⟩
  rw [if_neg h3] at h
  by_cases h4 : b.toNat < 0xF0
  · rw [if_pos h4] at h
    cases h
    refine ⟨?_, show 1 ≤ b.toNat - 0xE0 ∨ 0x82 ≤ if b.toNat = 0xE0 then 0xA0 else 0x80 from ?_⟩
    · dsimp only
      split <;> omega
    · split <;> omega
  rw [if_neg h4] at h
  by_cases h5 : b.toNat < 0xF5
  · rw [if_pos h5] at h
    cases h
    refine ⟨?_, show 1 ≤ b.toNat - 0xF0 ∨ 0x82 ≤ if b.toNat = 0xF0 then 0x90 else 0x80 from ?_⟩
    · dsimp only
      split <;> omega
    · split <;> omega
  · rw [if_neg h5] at h
    cases h

theorem toNat_ofNat_valid {n : Nat} (h : n.isValidChar) : (Char.ofNat n).toNat = n := by
  rw [Char.ofNat, dif_pos h]
  rfl

theorem lead_char {b : UInt8} {c : Char} (h : lead b = .char c) : b = UInt8.ofNat c.toNat := by
  simp only [lead] at h
  split_ifs at h with h1
  cases h
  have hvalid : b.toNat.isValidChar := .inl (by omega)
  rw [toNat_ofNat_valid hvalid, UInt8.ofNat_toNat]

theorem step_wide {state : Option Pending} (h : ∀ p ∈ state, p.Wide) (b : UInt8) :
    ∀ p ∈ (step state b).2, p.Wide := by
  have hbegin : ∀ p ∈ (begin b).2, p.Wide := by
    intro p hp
    unfold begin at hp
    cases hlead : lead b with
    | char c => simp [hlead] at hp
    | bad => simp [hlead] at hp
    | more p' =>
        rw [hlead] at hp
        obtain rfl : p' = p := by simpa using hp
        exact lead_wide hlead
  cases state with
  | none => exact hbegin
  | some p =>
      obtain ⟨hlow, hbits⟩ := h p rfl
      unfold step
      dsimp only
      split_ifs with hrange hneed
      · simp
      · rintro p' hp'
        obtain rfl := Option.some.inj hp'
        rw [if_neg hneed] at hbits
        constructor
        · exact Nat.le_refl _
        · dsimp only
          split <;> omega
      · exact hbegin

variable {a : Char} (hascii : a.toNat < 0x80)
include hascii

theorem begin_ascii : begin (UInt8.ofNat a.toNat) = ([a], none) := by
  have htoNat : (UInt8.ofNat a.toNat).toNat = a.toNat := by
    rw [UInt8.toNat_ofNat']
    omega
  simp only [begin, lead, htoNat, if_pos hascii, Char.ofNat_toNat]

-- An ASCII character ends what was begun before it.
theorem lossyFrom_ascii {state : Option Pending} (h : ∀ p ∈ state, p.Wide) (xs ys : List UInt8) :
    lossyFrom state (xs ++ UInt8.ofNat a.toNat :: ys) = lossyFrom state xs ++ a :: lossy ys := by
  induction xs generalizing state with
  | nil =>
      rw [List.nil_append, lossyFrom_cons]
      cases state with
      | none => simp only [step, begin_ascii hascii, lossyFrom, List.nil_append, List.cons_append, lossy]
      | some p =>
          have hlow := (h p rfl).low
          have hout : ¬ (p.low ≤ (UInt8.ofNat a.toNat).toNat ∧ (UInt8.ofNat a.toNat).toNat ≤ p.high) := by
            rw [UInt8.toNat_ofNat']
            omega
          simp only [step, if_neg hout, begin_ascii hascii, lossyFrom, List.nil_append,
            List.cons_append, lossy]
  | cons x xs ih =>
      rw [List.cons_append, lossyFrom_cons, lossyFrom_cons, ih (step_wide h x), List.append_assoc]

theorem step_not_ascii (hpos : 0 < a.toNat) {state : Option Pending} (h : ∀ p ∈ state, p.Wide)
    {x : UInt8} (hx : x ≠ UInt8.ofNat a.toNat) : a ∉ (step state x).1 := by
  have hreplacement : a ≠ REPLACEMENT := by
    rintro rfl
    exact absurd hascii (by decide)
  have hbegin : a ∉ (begin x).1 := by
    unfold begin
    cases hlead : lead x with
    | char c =>
        have hc : a ≠ c := by
          rintro rfl
          exact hx (lead_char hlead)
        simpa using hc
    | bad => simpa using hreplacement
    | more p => simp
  cases state with
  | none => exact hbegin
  | some p =>
      obtain ⟨hlow, hbits⟩ := h p rfl
      unfold step
      dsimp only
      split_ifs with hrange hneed
      · -- the code that is complete is 0x80 at least
        rw [if_pos hneed] at hbits
        intro hmem
        have heq := congrArg Char.toNat (List.mem_singleton.mp hmem)
        by_cases hvalid : (p.bits * 64 + (x.toNat - 0x80)).isValidChar
        · rw [toNat_ofNat_valid hvalid] at heq
          omega
        · rw [Char.ofNat, dif_neg hvalid] at heq
          exact absurd heq (Nat.ne_of_gt hpos)
      · simp
      · simpa [hreplacement] using hbegin

theorem not_mem_lossyFrom (hpos : 0 < a.toNat) {state : Option Pending} (h : ∀ p ∈ state, p.Wide)
    {bytes : List UInt8} (hbytes : UInt8.ofNat a.toNat ∉ bytes) : a ∉ lossyFrom state bytes := by
  induction bytes generalizing state with
  | nil =>
      cases state with
      | none => simp [lossyFrom]
      | some p =>
          have hreplacement : a ≠ REPLACEMENT := by
            rintro rfl
            exact absurd hascii (by decide)
          simpa [lossyFrom] using hreplacement
  | cons x rest ih =>
      rw [List.mem_cons, not_or] at hbytes
      rw [lossyFrom_cons, List.mem_append, not_or]
      exact ⟨step_not_ascii hascii hpos h (Ne.symm hbytes.1), ih (step_wide h x) hbytes.2⟩

-- Splitting the text at an ASCII character is splitting its bytes.
theorem splitOn_lossy (hpos : 0 < a.toNat) (bytes : List UInt8) :
    (lossy bytes).splitOn a = (bytes.splitOn (UInt8.ofNat a.toNat)).map lossy := by
  have hnone : ∀ p ∈ (none : Option Pending), p.Wide := by simp
  have hjoin : ∀ pieces : List (List UInt8), lossy ([UInt8.ofNat a.toNat].intercalate pieces) =
      [a].intercalate (pieces.map lossy) := by
    intro pieces
    induction pieces with
    | nil => rfl
    | cons piece pieces ih =>
        cases pieces with
        | nil => simp
        | cons next pieces =>
            rw [List.intercalate_cons_cons, List.append_assoc, List.singleton_append, lossy,
              lossyFrom_ascii hascii hnone, ih]
            simp [lossy]
  have hbytes : [UInt8.ofNat a.toNat].intercalate (bytes.splitOn (UInt8.ofNat a.toNat)) = bytes :=
    List.intercalate_splitOn ..
  rw [← hbytes, hjoin, hbytes]
  apply List.splitOn_intercalate
  · intro piece hpiece
    obtain ⟨part, hpart, rfl⟩ := List.mem_map.mp hpiece
    exact not_mem_lossyFrom hascii hpos hnone fun hmem => (Split.mem_of_mem_piece hpart _ hmem).2 rfl
  · simp

theorem mem_encode_ascii (hpos : 0 < a.toNat) {s : List Char} (h : UInt8.ofNat a.toNat ∈ encode s) :
    a ∈ s := by
  by_contra ha
  have hsplit := splitOn_lossy hascii hpos (encode s)
  rw [lossy_encode, List.splitOn_eq_singleton ha] at hsplit
  -- one piece: the byte is nowhere
  obtain ⟨piece, hpiece⟩ := List.length_eq_one_iff.mp (show ((encode s).splitOn (UInt8.ofNat a.toNat)).length = 1 by
    simpa using (congrArg List.length hsplit).symm)
  have hwhole : [UInt8.ofNat a.toNat].intercalate ((encode s).splitOn (UInt8.ofNat a.toNat)) =
      encode s := List.intercalate_splitOn ..
  rw [hpiece, List.intercalate_singleton] at hwhole
  have hmem : piece ∈ (encode s).splitOn (UInt8.ofNat a.toNat) := by rw [hpiece]; exact List.mem_singleton_self _
  rw [← hwhole] at h
  exact (Split.mem_of_mem_piece hmem _ h).2 rfl

end Ascii

section Map

-- A change of ASCII characters alone, on bytes and on characters. The character zero stays as it
-- is: a code that is no character decodes to it.
structure MapsAscii (f : UInt8 → UInt8) (g : Char → Char) : Prop where
  bytes : ∀ b, 0x80 ≤ b.toNat → f b = b
  chars : ∀ c, c.toNat = 0 ∨ 0x80 ≤ c.toNat → g c = c
  ascii : ∀ b, b.toNat < 0x80 → (f b).toNat < 0x80 ∧ g (Char.ofNat b.toNat) = Char.ofNat (f b).toNat

variable {f : UInt8 → UInt8} {g : Char → Char} (hmap : MapsAscii f g)
include hmap

theorem begin_map (b : UInt8) : begin (f b) = ((begin b).1.map g, (begin b).2) := by
  by_cases hlow : b.toNat < 0x80
  · obtain ⟨hf, hg⟩ := hmap.ascii b hlow
    simp only [begin, lead, if_pos hlow, if_pos hf, List.map_cons, List.map_nil, hg]
  · rw [hmap.bytes b (by omega)]
    have hreplacement : g REPLACEMENT = REPLACEMENT := hmap.chars _ (.inr (by decide))
    unfold begin
    cases hlead : lead b with
    | char c =>
        simp only [lead, if_neg hlow] at hlead
        split_ifs at hlead
    | more p => rfl
    | bad => simp only [List.map_cons, List.map_nil, hreplacement]

theorem step_map {state : Option Pending} (h : ∀ p ∈ state, p.Wide) (b : UInt8) :
    step state (f b) = ((step state b).1.map g, (step state b).2) := by
  cases state with
  | none => exact begin_map hmap b
  | some p =>
      obtain ⟨hlow, hbits⟩ := h p rfl
      have hreplacement : g REPLACEMENT = REPLACEMENT := hmap.chars _ (.inr (by decide))
      by_cases hascii : b.toNat < 0x80
      · have hf := (hmap.ascii b hascii).1
        simp only [step, if_neg (show ¬ (p.low ≤ b.toNat ∧ b.toNat ≤ p.high) by omega),
          if_neg (show ¬ (p.low ≤ (f b).toNat ∧ (f b).toNat ≤ p.high) by omega), begin_map hmap,
          List.map_cons, hreplacement]
      · have hb := hmap.bytes b (by omega)
        have hbegin := begin_map hmap b
        rw [hb] at hbegin ⊢
        unfold step
        dsimp only
        split_ifs with hrange hneed
        · rw [if_pos hneed] at hbits
          have hchar : g (Char.ofNat (p.bits * 64 + (b.toNat - 0x80))) =
              Char.ofNat (p.bits * 64 + (b.toNat - 0x80)) := by
            apply hmap.chars
            by_cases hvalid : (p.bits * 64 + (b.toNat - 0x80)).isValidChar
            · rw [toNat_ofNat_valid hvalid]
              omega
            · rw [Char.ofNat, dif_neg hvalid]
              exact .inl rfl
          simp only [List.map_cons, List.map_nil, hchar]
        · rfl
        · simp only [List.map_cons, hreplacement]
          rw [Prod.mk.injEq]
          exact ⟨congrArg _ (congrArg Prod.fst hbegin), rfl⟩

theorem lossyFrom_map {state : Option Pending} (h : ∀ p ∈ state, p.Wide) (bytes : List UInt8) :
    lossyFrom state (bytes.map f) = (lossyFrom state bytes).map g := by
  induction bytes generalizing state with
  | nil =>
      cases state with
      | none => rfl
      | some p =>
          have hreplacement : g REPLACEMENT = REPLACEMENT := hmap.chars _ (.inr (by decide))
          simp only [List.map_nil, lossyFrom, List.map_cons, hreplacement]
  | cons b bytes ih =>
      rw [List.map_cons, lossyFrom_cons, lossyFrom_cons, step_map hmap h, ih (step_wide h b),
        List.map_append]

theorem lossy_map (bytes : List UInt8) : lossy (bytes.map f) = (lossy bytes).map g :=
  lossyFrom_map hmap (by simp) bytes

end Map

end Utf8
