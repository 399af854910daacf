import AltKeeper.Text
import Mathlib.Data.List.TakeWhile

-- The lines of a text that was written line by line, and what is found in them.
namespace AltKeeper.Str

section Ends

-- A line as it is read: without the carriage return before its end.
def drop_return (line : Str) : Str := if line.getLast? = some '\r' then line.dropLast else line

def unlines (ls : List Str) : Str := ls.flatMap (· ++ ['\n'])

@[simp] theorem unlines_nil : unlines [] = [] := rfl

theorem unlines_cons (l : Str) (ls : List Str) : unlines (l :: ls) = l ++ '\n' :: unlines ls := by
  simp [unlines]

theorem unlines_append (ls ms : List Str) : unlines (ls ++ ms) = unlines ls ++ unlines ms :=
  List.flatMap_append ..

theorem drop_return_cases (line : Str) : drop_return line = line ∨ line = drop_return line ++ ['\r'] := by
  by_cases hlast : line.getLast? = some '\r'
  · right
    rw [drop_return, if_pos hlast]
    obtain ⟨before, rfl⟩ := List.getLast?_eq_some_iff.mp hlast
    rw [List.dropLast_concat]
  · left
    rw [drop_return, if_neg hlast]

theorem drop_return_begins (line : Str) : drop_return line <+: line := by
  rcases drop_return_cases line with h | h
  · exact ⟨[], by rw [h, List.append_nil]⟩
  · exact ⟨['\r'], h.symm⟩

theorem drop_return_append {s t : Str} (ht : t ≠ []) : drop_return (s ++ t) = s ++ drop_return t := by
  unfold drop_return
  rw [List.getLast?_append_of_ne_nil s ht]
  by_cases hlast : t.getLast? = some '\r'
  · rw [if_pos hlast, if_pos hlast, List.dropLast_append_of_ne_nil ht]
  · rw [if_neg hlast, if_neg hlast]

theorem lines_cons {line : Str} (h : '\n' ∉ line) (rest : Str) :
    lines (line ++ '\n' :: rest) = drop_return line :: lines rest := by
  obtain ⟨piece, pieces, hpieces⟩ := List.exists_cons_of_ne_nil (List.splitOn_ne_nil '\n' rest)
  unfold lines
  rw [List.splitOn_append_cons_self_of_not_mem h, hpieces]
  simp [drop_return]

theorem lines_unlines_append {ls : List Str} (h : ∀ l ∈ ls, '\n' ∉ l) (rest : Str) :
    lines (unlines ls ++ rest) = ls.map drop_return ++ lines rest := by
  induction ls with
  | nil => rfl
  | cons l ls ih =>
      rw [unlines_cons, List.append_assoc, List.cons_append, lines_cons (h l List.mem_cons_self),
        ih fun m hm => h m (List.mem_cons_of_mem _ hm)]
      rfl

-- A text that ends with its last line is written line by line.
theorem exists_unlines {s : Str} (hend : s = [] ∨ s.getLast? = some '\n') :
    ∃ ls, (∀ l ∈ ls, '\n' ∉ l) ∧ s = unlines ls := by
  induction hn : s.length using Nat.strong_induction_on generalizing s with
  | _ n ih =>
      by_cases hmem : '\n' ∈ s
      · obtain ⟨line, rest, rfl, hline⟩ := List.eq_append_cons_of_mem hmem
        have hrest : rest = [] ∨ rest.getLast? = some '\n' := by
          by_cases hnil : rest = []
          · exact .inl hnil
          · right
            rcases hend with hend | hend
            · simp at hend
            · rwa [List.getLast?_append_of_ne_nil _ (by simp), ← List.singleton_append,
                List.getLast?_append_of_ne_nil _ hnil] at hend
        have hlt : rest.length < n := by
          rw [← hn, List.length_append, List.length_cons]
          omega
        obtain ⟨ls, hls, rfl⟩ := ih rest.length hlt hrest rfl
        exact ⟨line :: ls, List.forall_mem_cons.mpr ⟨hline, hls⟩, (unlines_cons line ls).symm⟩
      · rcases hend with rfl | hend
        · exact ⟨[], by simp, rfl⟩
        · exact absurd (List.mem_of_getLast? hend) hmem

end Ends

section Words

theorem contains_iff {s word : Str} : s.contains word = true ↔ word <:+: s := by
  induction s with
  | nil => simp [contains]
  | cons c s ih => rw [contains, Bool.or_eq_true, ih, List.isPrefixOf_iff_prefix, List.infix_cons_iff]

theorem contains_drop_return {line word : Str} (hword : '\r' ∉ word) :
    (drop_return line).contains word = line.contains word := by
  rw [Bool.eq_iff_iff, contains_iff, contains_iff]
  rcases drop_return_cases line with h | h
  · rw [h]
  · constructor
    · exact fun hin => hin.trans (drop_return_begins line).isInfix
    · intro hin
      rw [h, List.infix_concat_iff] at hin
      rcases hin with hsuffix | hin
      · rw [List.suffix_concat_iff] at hsuffix
        rcases hsuffix with rfl | ⟨before, rfl, -⟩
        · exact List.nil_infix
        · exact absurd (by simp) hword
      · exact hin

end Words

section Trim

theorem dropWhile_eq_self {p : Char → Bool} {s : Str} (h : ∀ c, s.head? = some c → p c = false) :
    s.dropWhile p = s := by
  cases s with
  | nil => rfl
  | cons c s => rw [List.dropWhile_cons_of_neg (by simp [h c rfl])]

theorem trim_eq_of_ends {s : Str} (hhead : ∀ c, s.head? = some c → is_whitespace c = false)
    (hlast : ∀ c, s.getLast? = some c → is_whitespace c = false) : s.trim = s := by
  rw [trim, dropWhile_eq_self hhead, dropWhile_eq_self (by rwa [List.head?_reverse]),
    List.reverse_reverse]

theorem trim_eq_self {s : Str} (h : ∀ c ∈ s, is_whitespace c = false) : s.trim = s :=
  trim_eq_of_ends (fun c hc => h c (List.mem_of_head? hc)) fun c hc => h c (List.mem_of_getLast? hc)

theorem head_of_trim {s : Str} (htrim : s.trim = s) {c : Char} (h : s.head? = some c) :
    is_whitespace c = false := by
  have hbegin : s.trim <+: s.dropWhile is_whitespace := by
    rw [trim, ← List.reverse_suffix, List.reverse_reverse]
    exact List.dropWhile_suffix _
  rw [htrim] at hbegin
  obtain ⟨rest, hrest⟩ := hbegin
  have hdropped : (s.dropWhile is_whitespace).head? = some c := by
    rw [← hrest, List.head?_append, h]
    rfl
  have hnot := List.head?_dropWhile_not is_whitespace s
  rw [hdropped] at hnot
  simpa using hnot

theorem trim_drop_return (s : Str) : (drop_return s).trim = s.trim := by
  rcases drop_return_cases s with h | h
  · rw [h]
  · generalize drop_return s = t at h
    subst h
    by_cases hall : t.all is_whitespace = true
    · have hblank : ∀ c ∈ t, is_whitespace c = true := List.all_eq_true.mp hall
      have hblank' : ∀ c ∈ t ++ ['\r'], is_whitespace c = true := by
        intro c hc
        rcases List.mem_append.mp hc with hc | hc
        · exact hblank c hc
        · rw [List.mem_singleton.mp hc]
          decide
      rw [trim, trim, List.dropWhile_eq_nil_iff.mpr hblank, List.dropWhile_eq_nil_iff.mpr hblank']
    · have hsplit : (t ++ ['\r']).dropWhile is_whitespace = t.dropWhile is_whitespace ++ ['\r'] := by
        rw [List.dropWhile_append, if_neg]
        simpa [List.dropWhile_eq_nil_iff] using hall
      rw [trim, trim, hsplit, List.reverse_append, List.reverse_singleton, List.singleton_append,
        List.dropWhile_cons_of_pos (by decide)]

end Trim

section Decimals

theorem isDigit_of_mem {n : Nat} : ∀ c ∈ (toString n).toList, c.isDigit = true := by
  intro c hc
  rw [Nat.toString_eq_repr, Nat.toList_repr] at hc
  exact Nat.isDigit_of_mem_toDigits (by decide) (by decide) hc

theorem digit_ne {x c : Char} (hc : c.isDigit = true) (hx : x.isDigit = false) : c ≠ x := by
  rintro rfl
  rw [hx] at hc
  cases hc

theorem digit_not_whitespace {c : Char} (hc : c.isDigit = true) : is_whitespace c = false := by
  have hdigits : ∀ n < 58, 48 ≤ n → is_whitespace (Char.ofNat n) = false := by decide
  have hrange : 48 ≤ c.toNat ∧ c.toNat ≤ 57 := by
    simpa [Char.isDigit, UInt32.le_iff_toNat_le] using hc
  have hword := hdigits c.toNat (by omega) hrange.1
  rwa [Char.ofNat_toNat] at hword

theorem read_digits {max acc m : Nat} {cs : Str} (h : cs.foldlM (read_digit max) acc = some m) :
    m = Nat.ofDigitChars 10 cs acc := by
  induction cs generalizing acc with
  | nil => simpa using h.symm
  | cons c cs ih =>
      rw [List.foldlM_cons] at h
      obtain ⟨n, hn, hrest⟩ := Option.bind_eq_some_iff.mp h
      rw [read_digit] at hn
      split_ifs at hn
      cases hn
      rw [Nat.ofDigitChars_cons, ih hrest, Nat.mul_comm]

-- A number that is read is the one that was written; a large one is not read.
theorem parse_i32_decimal {n : Nat} {v : Int} (h : parse_i32 (toString n).toList = some v) : v = n := by
  have hdigits := @isDigit_of_mem n
  have hvalue : Nat.ofDigitChars 10 (toString n).toList 0 = n := by
    rw [Nat.toString_eq_repr, Nat.toList_repr, Nat.ofDigitChars_ten_toDigits]
  generalize (toString n).toList = s at h hdigits hvalue
  have hplus : drop_plus s = s := by
    unfold drop_plus
    split
    · exact absurd rfl (digit_ne (hdigits '+' List.mem_cons_self) (by decide))
    · rfl
  unfold parse_i32 at h
  split at h
  · exact absurd rfl (digit_ne (hdigits '-' List.mem_cons_self) (by decide))
  · obtain ⟨m, hm, rfl⟩ : ∃ m, parse_unsigned (2 ^ 31 - 1) s = some m ∧ (m : Int) = v := by
      simpa [Option.bind_eq_some_iff] using h
    rw [parse_unsigned, hplus] at hm
    by_cases hnil : s = []
    · simp [hnil] at hm
    · rw [if_neg hnil] at hm
      rw [read_digits hm, hvalue]

end Decimals

end AltKeeper.Str
