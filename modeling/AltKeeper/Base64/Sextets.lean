import AltKeeper.Base64
import AltKeeper.Lib.Base64

-- What the decoder reads in a text of base64: six bits a character, put together in bytes.
namespace AltKeeper

section Values

theorem b64_value_symbol {n : Nat} (h : n < 64) :
    b64_value (UInt8.ofNat (Base64.symbol n).toNat) = some (UInt32.ofNat n) := by
  have hall : ∀ n < 64, b64_value (UInt8.ofNat (Base64.symbol n).toNat) = some (UInt32.ofNat n) := by
    decide +kernel
  exact hall n h

theorem symbol_of_b64_value {c : UInt8} {v : UInt32} (h : b64_value c = some v) :
    v.toNat < 64 ∧ c = UInt8.ofNat (Base64.symbol v.toNat).toNat := by
  have hall : ∀ n < 256, (b64_value (UInt8.ofNat n)).all
      (fun v => v.toNat < 64 && UInt8.ofNat n == UInt8.ofNat (Base64.symbol v.toNat).toNat) = true := by
    decide +kernel
  have hc := hall c.toNat c.toNat_lt
  rw [UInt8.ofNat_toNat, h] at hc
  simpa using hc

-- The decoder and the alphabet agree, byte by byte.
theorem b64_value_eq (c : UInt8) : b64_value c =
    if Char.ofNat c.toNat ∈ Base64.alphabet then some (UInt32.ofNat (Base64.place c)) else none := by
  split_ifs with hc
  · have hvalid : c.toNat.isValidChar := .inl (Nat.lt_trans c.toNat_lt (by decide))
    have hsymbol := b64_value_symbol (Base64.place_lt hc)
    rwa [Base64.symbol_place hc, Utf8.toNat_ofNat_valid hvalid, UInt8.ofNat_toNat] at hsymbol
  · cases hv : b64_value c with
    | none => rfl
    | some v =>
        obtain ⟨hlt, hbyte⟩ := symbol_of_b64_value hv
        have hmem := Base64.symbol_mem hlt
        rw [← hbyte] at hmem
        exact absurd hmem hc

theorem toNat_place {c : UInt8} (h : Char.ofNat c.toNat ∈ Base64.alphabet) :
    (UInt32.ofNat (Base64.place c)).toNat = Base64.place c := by
  have hlt := Base64.place_lt h
  rw [UInt32.toNat_ofNat']
  omega

-- Every character of a text of base64 is visible, and so is its padding.
theorem bare_visible (bytes : Octets) {padding : Str} (hpad : ∀ c ∈ padding, c = '=') :
    ∀ c ∈ Base64.bare bytes ++ padding, 32 < c.toNat ∧ c.toNat < 127 := by
  have hall : ∀ n < 64, 32 < (Base64.symbol n).toNat ∧ (Base64.symbol n).toNat < 127 := by
    decide +kernel
  intro c hc
  rcases List.mem_append.mp hc with hc | hc
  · obtain ⟨bits, hbits, rfl⟩ := List.mem_map.mp hc
    exact hall _ (Base64.toNat_sextet_lt hbits)
  · rw [hpad c hc]
    decide

theorem not_whitespace_of_visible {c : Char} (h : 32 < c.toNat ∧ c.toNat < 127) :
    is_ascii_whitespace (UInt8.ofNat c.toNat) = false := by
  have hall : ∀ n < 127, 32 < n → is_ascii_whitespace (UInt8.ofNat n) = false := by decide +kernel
  exact hall c.toNat h.2 h.1

end Values

section Steps

-- The variables of the loop between two characters.
structure Held where
  acc : UInt32
  bits : Nat
  out : Octets

def Held.start : Held := ⟨0, 0, []⟩

def b64_step (held : Held) (c : UInt8) : Option Held :=
  (b64_value c).map fun v =>
    let acc := (held.acc <<< 6) ||| v
    let bits := held.bits + 6
    if 8 ≤ bits then
      ⟨acc &&& ((1 <<< UInt32.ofNat (bits - 8)) - 1), bits - 8,
        held.out ++ [(acc >>> UInt32.ofNat (bits - 8)).toUInt8]⟩
    else ⟨acc, bits, held.out⟩

theorem b64_loop_cons {held next : Held} {c : UInt8} (h : b64_step held c = some next)
    (rest : Octets) : b64_loop (c :: rest) held.acc held.bits held.out =
      b64_loop rest next.acc next.bits next.out := by
  obtain ⟨v, hv, rfl⟩ := Option.map_eq_some_iff.mp h
  have hc : c ≠ 61 := by
    rintro rfl
    cases hv
  rw [b64_loop, if_neg hc, hv]
  dsimp only
  split_ifs with hfull
  · rfl
  · rfl

-- Where the loop stands once it has read some characters.
theorem b64_loop_append {read : Octets} {held next : Held} (h : read.foldlM b64_step held = some next)
    (rest : Octets) : b64_loop (read ++ rest) held.acc held.bits held.out =
      b64_loop rest next.acc next.bits next.out := by
  induction read generalizing held with
  | nil =>
      rw [Option.some.inj h]
      rfl
  | cons c read ih =>
      obtain ⟨held', hstep, hrun⟩ := Option.bind_eq_some_iff.mp h
      rw [List.cons_append, b64_loop_cons hstep, ih hrun]

-- The loop takes one step after the other up to the first `=`.
theorem b64_loop_eq (cs : Octets) (held : Held) : b64_loop cs held.acc held.bits held.out =
    ((cs.takeWhile (· ≠ 61)).foldlM b64_step held).map Held.out := by
  induction cs generalizing held with
  | nil => rfl
  | cons c cs ih =>
      by_cases hc : c = 61
      · rw [b64_loop, if_pos hc, List.takeWhile_cons_of_neg (by simpa using hc)]
        rfl
      · rw [List.takeWhile_cons_of_pos (by simpa using hc), List.foldlM_cons]
        cases hstep : b64_step held c with
        | none =>
            rw [b64_loop, if_neg hc, Option.map_eq_none_iff.mp hstep]
            rfl
        | some next =>
            rw [b64_loop_cons hstep, ih]
            rfl

-- `out` and the pending bits, fewer than a byte, are all that was read.
structure Held.Pending (read : Octets) (held : Held) : Prop where
  few : held.bits < 8
  small : held.acc.toNat < 2 ^ held.bits
  all : read.flatMap Base64.sextet =
    Bits.ofBytes held.out ++ Bits.ofNat held.bits held.acc.toNat

theorem Held.Pending.start : Held.start.Pending [] :=
  { few := by decide
    small := by decide
    all := rfl }

-- Nothing of the accumulator is shifted out: it holds less than a byte.
theorem toNat_shift_or {acc v : UInt32} (hacc : acc.toNat < 2 ^ 8) (hv : v.toNat < 2 ^ 6) :
    ((acc <<< 6) ||| v).toNat = acc.toNat * 2 ^ 6 + v.toNat := by
  have hshift : (6 : UInt32).toNat % 32 = 6 := rfl
  rw [UInt32.toNat_or, UInt32.toNat_shiftLeft, hshift, Nat.shiftLeft_eq, Nat.mod_eq_of_lt (by omega),
    Nat.mul_comm, ← Nat.two_pow_add_eq_or_of_lt hv]

theorem toNat_shift {low : Nat} (hlow : low < 8) (acc : UInt32) :
    (acc >>> UInt32.ofNat low).toUInt8.toNat = acc.toNat / 2 ^ low % 2 ^ 8 := by
  have hsmall : (UInt32.ofNat low).toNat % 32 = low := by
    rw [UInt32.toNat_ofNat']
    omega
  rw [UInt32.toNat_toUInt8, UInt32.toNat_shiftRight, hsmall, Nat.shiftRight_eq_div_pow]

theorem toNat_mask {low : Nat} (hlow : low < 8) (acc : UInt32) :
    (acc &&& ((1 <<< UInt32.ofNat low) - 1)).toNat = acc.toNat % 2 ^ low := by
  have hsmall : (UInt32.ofNat low).toNat % 32 = low := by
    rw [UInt32.toNat_ofNat']
    omega
  have hone : (1 : UInt32).toNat = 1 := rfl
  have hpow : 2 ^ low ≤ 2 ^ 8 := Nat.pow_le_pow_right (by decide) (by omega)
  have hbit : (1 <<< UInt32.ofNat low : UInt32).toNat = 2 ^ low := by
    rw [UInt32.toNat_shiftLeft, hsmall, hone, Nat.shiftLeft_eq, Nat.one_mul, Nat.mod_eq_of_lt (by omega)]
  rw [UInt32.toNat_and, UInt32.toNat_sub_of_le, hbit, hone, Nat.and_two_pow_sub_one_eq_mod]
  rw [UInt32.le_iff_toNat_le, hbit, hone]
  exact Nat.two_pow_pos low

theorem Held.Pending.step {read : Octets} {held : Held} (h : held.Pending read) {c : UInt8}
    (hc : Char.ofNat c.toNat ∈ Base64.alphabet) :
    ∃ next, b64_step held c = some next ∧ next.Pending (read ++ [c]) := by
  have hsix : (UInt32.ofNat (Base64.place c)).toNat < 2 ^ 6 := by
    rw [toNat_place hc]
    exact Base64.place_lt hc
  have hfew := h.few
  have hbyte : held.acc.toNat < 2 ^ 8 :=
    Nat.lt_of_lt_of_le h.small (Nat.pow_le_pow_right (by decide) (by omega))
  -- the pending bits with the six of the character
  obtain ⟨acc, hacc⟩ : ∃ acc, acc = (held.acc <<< 6) ||| UInt32.ofNat (Base64.place c) := ⟨_, rfl⟩
  have hnat : acc.toNat = held.acc.toNat * 2 ^ 6 + Base64.place c := by
    rw [hacc, toNat_shift_or hbyte hsix, toNat_place hc]
  have hsmall : acc.toNat < 2 ^ (held.bits + 6) := by
    have hplace := Base64.place_lt hc
    have hheld := h.small
    rw [hnat, Nat.pow_add]
    omega
  have hall : (read ++ [c]).flatMap Base64.sextet =
      Bits.ofBytes held.out ++ Bits.ofNat (held.bits + 6) acc.toNat := by
    have hdiv : acc.toNat / 2 ^ 6 = held.acc.toNat := by
      have hplace := Base64.place_lt hc
      omega
    have hmod : acc.toNat % 2 ^ 6 = Base64.place c := by
      have hplace := Base64.place_lt hc
      omega
    rw [List.flatMap_append, h.all, List.flatMap_singleton, Base64.sextet, List.append_assoc,
      Bits.ofNat_add, hdiv, ← Bits.ofNat_mod 6 acc.toNat, hmod]
  rw [b64_step, b64_value_eq, if_pos hc, Option.map_some, ← hacc]
  by_cases hfull : 8 ≤ held.bits + 6
  · obtain ⟨low, hlow⟩ : ∃ low, held.bits + 6 = 8 + low := ⟨held.bits - 2, by omega⟩
    have hsub : held.bits + 6 - 8 = low := by omega
    refine ⟨_, rfl, ?_⟩
    simp only [if_pos hfull, hsub]
    constructor
    · change low < 8
      omega
    · rw [toNat_mask (by omega)]
      exact Nat.mod_lt _ (Nat.two_pow_pos low)
    · -- the byte that is full leaves, the bits below it stay
      rw [hall, hlow, Bits.ofNat_add, Bits.ofBytes_append, Bits.ofBytes_singleton,
        toNat_shift (by omega), Bits.ofNat_mod, toNat_mask (by omega), Bits.ofNat_mod,
        List.append_assoc]
  · refine ⟨_, rfl, ?_⟩
    rw [if_neg hfull]
    exact { few := Nat.lt_of_not_le hfull, small := hsmall, all := hall }

-- A run of steps: it goes through just when every character is of the alphabet.
theorem run_pending {cs : Octets} (h : ∀ c ∈ cs, Char.ofNat c.toNat ∈ Base64.alphabet) :
    ∃ held, cs.foldlM b64_step Held.start = some held ∧ held.Pending cs := by
  induction cs using List.reverseRecOn with
  | nil => exact ⟨_, rfl, Held.Pending.start⟩
  | append_singleton cs c ih =>
      obtain ⟨held, hrun, hheld⟩ := ih fun d hd => h d (List.mem_append_left _ hd)
      obtain ⟨next, hstep, hnext⟩ := hheld.step (h c (List.mem_append_right _ List.mem_cons_self))
      refine ⟨next, ?_, hnext⟩
      rw [List.foldlM_append, hrun, Option.bind_eq_bind, Option.bind_some, List.foldlM_cons, hstep]
      rfl

theorem run_stops {cs : Octets} {c : UInt8} (hc : c ∈ cs)
    (h : Char.ofNat c.toNat ∉ Base64.alphabet) (held : Held) : cs.foldlM b64_step held = none := by
  induction cs generalizing held with
  | nil => cases hc
  | cons d cs ih =>
      rw [List.foldlM_cons]
      rcases List.mem_cons.mp hc with rfl | hc
      · rw [b64_step, b64_value_eq, if_neg h]
        rfl
      · cases b64_step held d with
        | none => rfl
        | some next => exact ih hc next

theorem pending_of_run {read : Octets} {held : Held}
    (hrun : read.foldlM b64_step Held.start = some held) : held.Pending read := by
  by_cases hall : ∀ c ∈ read, Char.ofNat c.toNat ∈ Base64.alphabet
  · obtain ⟨held', hrun', hheld⟩ := run_pending hall
    rw [hrun, Option.some.injEq] at hrun'
    rwa [hrun']
  · push Not at hall
    obtain ⟨c, hc, hnot⟩ := hall
    rw [run_stops hc hnot] at hrun
    cases hrun

theorem run_eq (cs : Octets) :
    (cs.foldlM b64_step Held.start).map Held.out = Base64.decode cs := by
  rw [Base64.decode]
  split_ifs with hall
  · rw [Base64.all_symbols] at hall
    obtain ⟨held, hrun, hheld⟩ := run_pending hall
    have hshort : (Bits.ofNat held.bits held.acc.toNat).length < 8 := by
      rw [Bits.length_ofNat]
      exact hheld.few
    rw [hrun, Option.map_some, hheld.all, Bits.toBytes_ofBytes held.out hshort]
  · rw [Base64.all_symbols] at hall
    push Not at hall
    obtain ⟨c, hc, hnot⟩ := hall
    rw [run_stops hc hnot]
    rfl

end Steps

section Decoding

-- The bytes before the first `=` that are no whitespace.
def significant (s : Str) : Octets :=
  ((Utf8.encode s).takeWhile (· ≠ 61)).filter (!is_ascii_whitespace ·)

-- The characters whose single byte is whitespace.
def blank (c : Char) : Bool := c.toNat < 0x80 && is_ascii_whitespace (UInt8.ofNat c.toNat)

-- A `=` is no whitespace, so it ends the text where it ends the text without whitespace.
theorem significant_eq (s : Str) : significant s =
    ((Utf8.encode s).filter (!is_ascii_whitespace ·)).takeWhile (· ≠ 61) := by
  rw [List.takeWhile_filter, significant]
  congr 2
  funext c
  by_cases hc : c = 61
  · rw [hc]
    decide
  · simp [hc]

theorem filter_whitespace (s : Str) :
    (Utf8.encode s).filter (!is_ascii_whitespace ·) = Utf8.encode (s.filter (!blank ·)) := by
  have hwide : ∀ n < 256, 0x80 ≤ n → is_ascii_whitespace (UInt8.ofNat n) = false := by decide +kernel
  apply Utf8.filter_encode
  · intro c hc
    rw [blank, decide_eq_true hc, Bool.true_and]
  · intro b hb
    have hb' := hwide b.toNat b.toNat_lt hb
    rw [UInt8.ofNat_toNat] at hb'
    rw [hb']
    rfl
  · intro c hc
    rw [blank, decide_eq_false (Nat.not_lt.mpr hc)]
    rfl

theorem b64_decode_run (s : Str) :
    b64_decode s = ((significant s).foldlM b64_step Held.start).map Held.out := by
  rw [significant_eq]
  exact b64_loop_eq _ Held.start

-- Without its blanks and its padding the text is that of the bytes.
theorem significant_of_bare {s : Str} {bytes : Octets} {padding : Str}
    (hpad : ∀ c ∈ padding, c = '=') (h : s.filter (!blank ·) = Base64.bare bytes ++ padding) :
    significant s = (Base64.bare bytes).map fun c => UInt8.ofNat c.toNat := by
  have hascii : ∀ c ∈ Base64.bare bytes ++ padding, c.toNat < 0x80 := fun c hc =>
    Nat.lt_succ_of_lt (bare_visible bytes hpad c hc).2
  have hsymbols : ∀ c ∈ (Base64.bare bytes).map fun c => UInt8.ofNat c.toNat,
      decide (c ≠ 61) = true := by
    have hall : ∀ n < 64, decide (UInt8.ofNat (Base64.symbol n).toNat ≠ 61) = true := by decide +kernel
    intro c hc
    obtain ⟨d, hd, rfl⟩ := List.mem_map.mp hc
    obtain ⟨bits, hbits, rfl⟩ := List.mem_map.mp hd
    exact hall _ (Base64.toNat_sextet_lt hbits)
  rw [significant_eq, filter_whitespace, h, Utf8.encode_ascii hascii, List.map_append,
    List.takeWhile_append_of_pos hsymbols]
  cases padding with
  | nil => rw [List.map_nil, List.takeWhile_nil, List.append_nil]
  | cons c padding =>
      rw [hpad c List.mem_cons_self, List.map_cons, List.takeWhile_cons_of_neg (by decide),
        List.append_nil]

theorem b64_decode_spaced {s : Str} {bytes : Octets} {padding : Str}
    (hpad : ∀ c ∈ padding, c = '=') (h : s.filter (!blank ·) = Base64.bare bytes ++ padding) :
    b64_decode s = some bytes := by
  rw [b64_decode_run, run_eq, significant_of_bare hpad h, Base64.decode_bare]

-- A text of base64, whatever its padding, is read back.
theorem b64_decode_bare (bytes : Octets) {padding : Str} (hpad : ∀ c ∈ padding, c = '=') :
    b64_decode (Base64.bare bytes ++ padding) = some bytes := by
  refine b64_decode_spaced hpad (List.filter_eq_self.mpr fun c hc => ?_)
  rw [blank, not_whitespace_of_visible (bare_visible bytes hpad c hc), Bool.and_false]
  rfl

end Decoding

section Reference

-- The decoder is the reference on every text. Wherever the loop stands, its bytes and its pending
-- bits are all that it read; and a text of base64 is read back whatever its padding and its blanks.
theorem b64_decode_reference :
    (∀ s, b64_decode s = Base64.decode (significant s)) ∧
    (∀ s out, b64_decode s = some out → out.length = 6 * (significant s).length / 8) ∧
    (∀ s, b64_decode s = ((significant s).foldlM b64_step Held.start).map Held.out) ∧
    (∀ read held, List.foldlM b64_step Held.start read = some held → held.Pending read ∧
      ∀ rest, b64_loop (read ++ rest) 0 0 [] = b64_loop rest held.acc held.bits held.out) ∧
    ∀ s bytes, s.filter (!blank ·) = Base64.encode bytes ∨ s.filter (!blank ·) = Base64.bare bytes →
      b64_decode s = some bytes := by
  have hreference : ∀ s, b64_decode s = Base64.decode (significant s) := fun s => by
    rw [b64_decode_run, run_eq]
  refine ⟨hreference, ?_, b64_decode_run, ?_, ?_⟩
  · intro s out h
    rw [hreference] at h
    exact Base64.length_decode h
  · intro read held hrun
    exact ⟨pending_of_run hrun, b64_loop_append hrun⟩
  · rintro s bytes (h | h)
    · exact b64_decode_spaced (fun c hc => List.eq_of_mem_replicate hc) h
    · exact b64_decode_spaced (List.forall_mem_nil _) (h.trans (List.append_nil _).symm)

theorem b64_decode_reference_spaced : b64_decode " Z m9v\nYg= =".toList = some [0x66, 0x6F, 0x6F, 0x62] :=
  b64_decode_reference.2.2.2.2 _ _ (.inl (by decide))

end Reference

end AltKeeper
