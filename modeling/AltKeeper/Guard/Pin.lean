import AltKeeper.Base64.Sextets
import AltKeeper.Guard
import AltKeeper.Text.Lines

-- The PIN that a request shows, as the password of Basic.
namespace AltKeeper.Web

section Comparison

theorem foldl_or_eq_zero (f : Nat → Nat) (is : List Nat) (diff : Nat) :
    is.foldl (fun diff i => diff ||| f i) diff = 0 ↔ diff = 0 ∧ ∀ i ∈ is, f i = 0 := by
  induction is generalizing diff with
  | nil => simp
  | cons i is ih =>
      rw [List.foldl_cons, ih, Nat.or_eq_zero_iff, List.forall_mem_cons, and_assoc]

-- No difference is lost: the lengths are compared first, then every byte.
theorem ct_eq_iff (a b : Octets) : ct_eq a b = true ↔ a = b := by
  rw [ct_eq, beq_iff_eq, foldl_or_eq_zero, Nat.xor_eq_zero_iff]
  constructor
  · rintro ⟨hlen, hbytes⟩
    apply List.ext_getElem hlen
    intro i hi hi'
    have hxor := hbytes i (List.mem_range.mpr (by omega))
    have hzero : a.getD i 0 ^^^ b.getD i 0 = 0 := UInt8.toNat_inj.mp hxor
    rw [UInt8.xor_eq_zero_iff] at hzero
    simpa [hi, hi'] using hzero
  · rintro rfl
    refine ⟨rfl, fun i _ => ?_⟩
    rw [UInt8.xor_self]
    rfl

end Comparison

section Password

theorem split_once_append {user : Str} {c : Char} (h : c ∉ user) (rest : Str) :
    (user ++ c :: rest).split_once c = some (user, rest) := by
  induction user with
  | nil => simp [Str.split_once]
  | cons d user ih =>
      rw [List.mem_cons, not_or] at h
      rw [List.cons_append, Str.split_once, if_neg (Ne.symm h.1), ih h.2]
      rfl

-- A text of visible characters is a header value, and is read back from it.
theorem to_str_encode {s : Str} (h : ∀ c ∈ s, 32 ≤ c.toNat ∧ c.toNat < 127) :
    to_str (Utf8.encode s) = some s := by
  have hascii : ∀ c ∈ s, c.toNat < 0x80 := fun c hc => by
    have := h c hc
    omega
  have hbyte : ∀ c ∈ s, (UInt8.ofNat c.toNat).toNat = c.toNat := fun c hc => by
    have := hascii c hc
    rw [UInt8.toNat_ofNat']
    omega
  rw [to_str, Utf8.encode_ascii hascii, if_pos, List.map_map]
  · have hmap : s.map ((fun b => Char.ofNat b.toNat) ∘ fun c => UInt8.ofNat c.toNat) = s.map id := by
      apply List.map_congr_left
      intro c hc
      simp only [Function.comp_apply, hbyte c hc, Char.ofNat_toNat, id]
    rw [hmap, List.map_id]
  · rw [List.all_map, List.all_eq_true]
    intro c hc
    have hc' := h c hc
    have h32 : (32 : UInt8) ≤ UInt8.ofNat c.toNat := by
      rw [UInt8.le_iff_toNat_le, hbyte c hc]
      exact hc'.1
    have h127 : UInt8.ofNat c.toNat < (127 : UInt8) := by
      rw [UInt8.lt_iff_toNat_lt, hbyte c hc]
      exact hc'.2
    simp [h32, h127]

end Password

section Header

theorem encode_injective {s t : Str} (h : Utf8.encode s = Utf8.encode t) : s = t := by
  rw [← Utf8.lossy_encode s, h, Utf8.lossy_encode]

-- What is read of a request does not depend on the PIN it is compared with.
theorem basic_password_ok_iff (headers : HeaderMap) : ∃ shown : Option Str,
    ∀ pin, basic_password_ok headers pin = true ↔ shown = some pin := by
  have hnone : ∀ pin : Str, ¬ none = some pin := by simp
  unfold basic_password_ok
  cases (headers.get "authorization").bind to_str with
  | none => exact ⟨none, by simp⟩
  | some value =>
      cases hbasic : value.dropPrefix? "Basic ".toList with
      | none =>
          refine ⟨none, fun pin => iff_of_false ?_ (hnone pin)⟩
          simp only [hbasic, Bool.false_eq_true, not_false_eq_true]
      | some encoded =>
          cases hraw : b64_decode (Str.trim encoded) with
          | none =>
              refine ⟨none, fun pin => iff_of_false ?_ (hnone pin)⟩
              simp only [hbasic, hraw, Bool.false_eq_true, not_false_eq_true]
          | some raw =>
              cases htext : Utf8.decode? raw with
              | none =>
                  refine ⟨none, fun pin => iff_of_false ?_ (hnone pin)⟩
                  simp only [hbasic, hraw, htext, Bool.false_eq_true, not_false_eq_true]
              | some text =>
                  refine ⟨some (((Str.split_once text ':').map (·.2)).getD text), fun pin => ?_⟩
                  simp only [hbasic, hraw, htext, ct_eq_iff, Option.some.injEq]
                  exact ⟨encode_injective, congrArg Utf8.encode⟩

theorem basic_password_ok_of_basic {headers : HeaderMap} {user pin padding : Str}
    (huser : ':' ∉ user) (hpad : ∀ c ∈ padding, c = '=')
    (h : headers.get "authorization" = some (Utf8.encode ("Basic ".toList ++
      (Base64.bare (Utf8.encode (user ++ ':' :: pin)) ++ padding)))) :
    basic_password_ok headers pin = true := by
  have hvisible := bare_visible (Utf8.encode (user ++ ':' :: pin)) hpad
  generalize htext : Base64.bare (Utf8.encode (user ++ ':' :: pin)) ++ padding = text at h hvisible
  have hvalue : to_str (Utf8.encode ("Basic ".toList ++ text)) = some ("Basic ".toList ++ text) := by
    apply to_str_encode
    have hbasic : ("Basic ".toList.all fun c => 32 ≤ c.toNat && c.toNat < 127) = true := by decide
    intro c hc
    rcases List.mem_append.mp hc with hc | hc
    · simpa using List.all_eq_true.mp hbasic c hc
    · exact ⟨Nat.le_of_lt (hvisible c hc).1, (hvisible c hc).2⟩
  have hbasic : ("Basic ".toList ++ text).dropPrefix? "Basic ".toList = some text := by
    rw [List.dropPrefix?_eq_some_iff]
    exact ⟨_, rfl, by simp⟩
  have htrim : Str.trim text = text := by
    apply Str.trim_eq_self
    intro c hc
    obtain ⟨hlow, hhigh⟩ := hvisible c hc
    simp only [Str.is_whitespace, Bool.or_eq_false_iff, Bool.and_eq_false_iff,
      decide_eq_false_iff_not, beq_eq_false_iff_ne]
    omega
  have hdecode : b64_decode text = some (Utf8.encode (user ++ ':' :: pin)) := by
    rw [← htext, b64_decode_bare _ hpad]
  unfold basic_password_ok
  rw [h, Option.bind_some, hvalue]
  simp only [hbasic, htrim, hdecode, Utf8.decode?_encode, split_once_append huser, Option.map_some,
    Option.getD_some]
  exact (ct_eq_iff _ _).mpr rfl

-- The header that a browser makes of any user and the PIN is accepted, and one that is accepted
-- for a PIN is refused for every other.
theorem pin_check :
    (∀ (headers : HeaderMap) (user pin text : Str), ':' ∉ user →
      text = Base64.encode (Utf8.encode (user ++ ':' :: pin)) ∨
        text = Base64.bare (Utf8.encode (user ++ ':' :: pin)) →
      headers.get "authorization" = some (Utf8.encode ("Basic ".toList ++ text)) →
      basic_password_ok headers pin = true) ∧
    ∀ (headers : HeaderMap) (pin pin' : Str), basic_password_ok headers pin = true → pin' ≠ pin →
      basic_password_ok headers pin' = false := by
  constructor
  · rintro headers user pin text huser (rfl | rfl) h
    · exact basic_password_ok_of_basic huser (fun c hc => List.eq_of_mem_replicate hc) h
    · rw [← List.append_nil (Base64.bare _)] at h
      exact basic_password_ok_of_basic huser (by simp) h
  · intro headers pin pin' hok hne
    obtain ⟨shown, hshown⟩ := basic_password_ok_iff headers
    rw [Bool.eq_false_iff]
    intro hok'
    have hboth := ((hshown pin).mp hok).symm.trans ((hshown pin').mp hok')
    exact hne (Option.some.inj hboth).symm

theorem pin_check_due_punti :
    basic_password_ok [("authorization".toList,
      Utf8.encode ("Basic ".toList ++ Base64.encode (Utf8.encode "u:è:1".toList)))] "è:1".toList = true ∧
    basic_password_ok [("authorization".toList,
      Utf8.encode ("Basic ".toList ++ Base64.encode (Utf8.encode "u:è:1".toList)))]
      ("è:1".toList ++ [Char.ofNat 0]) = false := by
  have hok := pin_check.1 [("authorization".toList,
    Utf8.encode ("Basic ".toList ++ Base64.encode (Utf8.encode "u:è:1".toList)))]
    "u".toList "è:1".toList _ (by decide) (.inl rfl) rfl
  exact ⟨hok, pin_check.2 _ _ _ hok (by decide)⟩

end Header

end AltKeeper.Web
