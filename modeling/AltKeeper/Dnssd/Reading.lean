import AltKeeper.Dnssd
import AltKeeper.Lib.Split
import Mathlib.Data.List.Basic

-- What a query that was read, and a name that was answered, look like.
namespace AltKeeper.Dnssd

section Reading

theorem read_labels_length {buf : Octets} {room at_ next : Nat} {parts : List Str}
    (h : read_labels buf room at_ = some (parts, next)) : ∀ part ∈ parts, part.length ≤ 63 := by
  induction room generalizing at_ parts next with
  | zero => simp [read_labels] at h
  | succ room ih =>
      unfold read_labels at h
      split at h
      · cases h
      · rename_i len hlen
        split_ifs at h with hzero hlarge
        · obtain ⟨rfl, rfl⟩ := Prod.mk.inj (Option.some.inj h)
          simp
        · cases hrest : read_labels buf room (at_ + 1 + len.toNat) with
          | none => simp [hrest] at h
          | some result =>
            simp only [hrest] at h
            split_ifs at h
            obtain ⟨rfl, rfl⟩ := Prod.mk.inj (Option.some.inj h)
            intro part hpart
            rcases List.mem_cons.mp hpart with rfl | hpart
            · have hlossy := Utf8.lossy_length_le ((buf.drop (at_ + 1)).take len.toNat)
              rw [List.length_take] at hlossy
              rw [Str.length_to_ascii_lowercase]
              have hbound : len.toNat ≤ 63 := by
                have hnot : ¬ 63 < len := fun h' => hlarge (Or.inr h')
                exact UInt8.le_iff_toNat_le.mp (UInt8.not_lt.mp hnot)
              omega
            · exact @ih _ result.2 result.1 hrest part hpart

-- A dot inside a label that was read splits it further.
theorem read_name_length {buf : Octets} {at_ next : Nat} {name : Str}
    (h : read_name buf at_ = some (name, next)) : ∀ piece ∈ name.splitOn '.', piece.length ≤ 63 := by
  rw [read_name, Option.map_eq_some_iff] at h
  obtain ⟨⟨parts, next'⟩, hparts, heq⟩ := h
  obtain ⟨rfl, rfl⟩ := Prod.mk.inj heq
  intro piece hpiece
  by_cases hnil : parts = []
  · have : piece = [] := by simpa [hnil] using hpiece
    simp [this]
  · rw [Split.intercalate_eq_flatMap parts hnil, List.mem_flatMap] at hpiece
    obtain ⟨part, hpart, hpiece⟩ := hpiece
    exact Nat.le_trans (Split.infix_of_mem hpiece).length_le (read_labels_length hparts part hpart)

-- The tests that the parser makes, one after the other, and where it finds each field.
theorem parse_query_iff {buf : Octets} {q : Query} :
    parse_query buf = some q ↔
      12 ≤ buf.length ∧ q.id = u16_at buf 0 ∧ u16_at buf 2 &&& 0x8000 = 0 ∧
        (u16_at buf 2 >>> 11) &&& 0xF = 0 ∧ u16_at buf 4 = 1 ∧
        q.recursion_desired = (u16_at buf 2 &&& 0x0100 != 0) ∧
        ∃ next, read_name buf 12 = some (q.name, next) ∧ next + 4 ≤ buf.length ∧
          q.qtype = u16_at buf next ∧ q.qclass = u16_at buf (next + 2) ∧
          (q.qclass = CLASS_IN ∨ q.qclass = TYPE_ANY) := by
  constructor
  · intro h
    unfold parse_query at h
    simp only [ne_eq, ite_not] at h
    split_ifs at h with hlen hqr hop hqd
    split at h
    · cases h
    · rename_i name next hname
      split_ifs at h with hend hclass
      cases h
      refine ⟨by omega, rfl, hqr, hop, hqd, rfl, next, hname, by omega, rfl, rfl, ?_⟩
      exact (Decidable.not_and_iff_not_or_not.mp hclass).imp of_not_not of_not_not
  · rintro ⟨hlen, hid, hqr, hop, hqd, hrd, next, hname, hend, hqtype, hqclass, hclass⟩
    obtain ⟨id, rd, name, qtype, qclass⟩ := q
    simp only at hid hrd hname hqtype hqclass hclass
    subst hid hrd hqtype hqclass
    unfold parse_query
    rw [if_neg (by omega), if_neg (by simpa using hqr), if_neg (by simpa using hop),
      if_neg (by simpa using hqd), hname]
    have hboth : ¬ (u16_at buf (next + 2) ≠ CLASS_IN ∧ u16_at buf (next + 2) ≠ TYPE_ANY) :=
      fun h => hclass.elim h.1 h.2
    simp only [if_neg (show ¬ buf.length < next + 4 by omega), if_neg hboth]

end Reading

section Answering

-- Every name of a zone is in lower case, and the server id is as it was given.
theorem Zone.new_some {domain inst id : Str} {port : UInt16} {address : Ipv4Addr}
    {clients : Ipv4Addr × UInt8} {z : Zone}
    (h : Zone.new domain inst id port address clients = some z) :
    let base := (domain.trim_matches '.').to_ascii_lowercase
    ∃ short, id.slice_to (min id.len 8) = some short ∧ z = {
      domain := base
      browse := "_altserver._tcp.".toList ++ base
      inst := inst.to_ascii_lowercase ++ "._altserver._tcp.".toList ++ base
      host := "altkeeper-".toList ++ short.to_ascii_lowercase ++ ".".toList ++ base
      server_id := id
      port
      address
      clients } := by
  obtain ⟨short, hshort, hz⟩ := Option.bind_eq_some_iff.mp h
  exact ⟨short, hshort, (Option.some.inj hz).symm⟩

private theorem eq_of_mem_ite {r r' : Record} {c : Bool} (h : r ∈ if c then [r'] else []) :
    r = r' := by
  cases c with
  | false => cases h
  | true => exact List.mem_singleton.mp h

-- The kinds of names a zone answers for, and what each holds.
theorem Zone.answer_cases {z : Zone} {name : Str} {qtype : UInt16} {records : List Record}
    (h : z.answer name qtype = some records) :
    (∃ p ∈ ["b", "db", "lb"], ∃ rest, name = p.toList ++ "._dns-sd._udp.".toList ++ rest ∧
        (rest = z.domain ∨ z.covers_reverse rest = true) ∧
        ∀ r ∈ records, r = .Ptr name z.domain) ∨
      (name = z.browse ∧ ∀ r ∈ records, r = .Ptr name z.inst) ∨
      (name = z.inst ∧ ∀ r ∈ records,
        r = .Srv name z.port z.host ∨ r = .Txt name ("serverID=".toList ++ z.server_id)) ∨
      (name = z.host ∧ ∀ r ∈ records, r = .A name z.address) := by
  unfold answer at h
  simp only [Option.any_eq_true] at h
  split at h
  case isTrue hbrowsing =>
    cases h
    obtain ⟨rest, hrest, hcovers⟩ := hbrowsing
    obtain ⟨p, hp, hdrop⟩ := List.exists_of_findSome?_eq_some hrest
    obtain ⟨p', rfl, hbeq⟩ := List.dropPrefix?_eq_some_iff.mp hdrop
    refine .inl ⟨p, hp, rest, by rw [eq_of_beq hbeq], by simpa using hcovers, ?_⟩
    exact fun r => eq_of_mem_ite
  split at h
  case isTrue hbrowse =>
    cases h
    exact .inr (.inl ⟨hbrowse, fun r => eq_of_mem_ite⟩)
  split at h
  case isTrue hinst =>
    cases h
    refine .inr (.inr (.inl ⟨hinst, fun r hr => ?_⟩))
    exact (List.mem_append.mp hr).imp eq_of_mem_ite eq_of_mem_ite
  split at h
  case isTrue hhost =>
    cases h
    exact .inr (.inr (.inr ⟨hhost, fun r => eq_of_mem_ite⟩))
  cases h

theorem foldlM_isSome {α β : Type} {f : β → α → Option β} {xs : List α} {init : β}
    (h : (xs.foldlM f init).isSome) : ∀ x ∈ xs, ∃ acc, (f acc x).isSome := by
  induction xs generalizing init with
  | nil => simp
  | cons x xs ih =>
      rw [List.foldlM_cons] at h
      cases hx : f init x with
      | none => simp [hx] at h
      | some acc =>
          rw [hx] at h
          intro y hy
          rcases List.mem_cons.mp hy with rfl | hy
          · exact ⟨init, by simp [hx]⟩
          · exact ih h y hy

theorem read_digit_isDigit {max acc : Nat} {c : Char} (h : (Str.read_digit max acc c).isSome) :
    c.isDigit := by
  simp only [Str.read_digit] at h
  split_ifs at h with hc
  · exact hc.1
  · cases h

-- What a number is spelled with.
theorem parse_u8_chars {s : Str} (h : s.parse_u8.isSome) :
    s ≠ [] ∧ ∀ c ∈ s, c = '+' ∨ c.isDigit := by
  simp only [Str.parse_u8, Str.parse_unsigned, Option.isSome_map] at h
  split_ifs at h with hnil
  · cases h
  · have hdigits : ∀ c ∈ s.drop_plus, c.isDigit := fun c hc =>
      (foldlM_isSome h c hc).elim fun _ => read_digit_isDigit
    have hcases : s = s.drop_plus ∨ s = '+' :: s.drop_plus := by
      unfold Str.drop_plus
      split
      · exact .inr rfl
      · exact .inl rfl
    rcases hcases with heq | heq
    · rw [heq]
      exact ⟨hnil, fun c hc => .inr (hdigits c hc)⟩
    · rw [heq]
      refine ⟨by simp, fun c hc => ?_⟩
      rcases List.mem_cons.mp hc with rfl | hc
      · exact .inl rfl
      · exact .inr (hdigits c hc)

theorem parse_u8_ascii {s : Str} (h : s.parse_u8.isSome) : s ≠ [] ∧ ∀ c ∈ s, c.toNat < 0x80 := by
  obtain ⟨hne, hchars⟩ := parse_u8_chars h
  refine ⟨hne, fun c hc => ?_⟩
  rcases hchars c hc with rfl | hdigit
  · decide
  · simp only [Char.isDigit, Bool.and_eq_true, decide_eq_true_eq] at hdigit
    have hle : c.toNat ≤ '9'.toNat := hdigit.2
    have h9 : '9'.toNat = 57 := rfl
    omega

theorem parse_u8_no_dot {s : Str} (h : s.parse_u8.isSome) : '.' ∉ s := by
  intro hdot
  rcases (parse_u8_chars h).2 '.' hdot with h | h <;> cases h

theorem read_octets_parse {parts : List Str} {i : Nat} {octets : List UInt8}
    {result : List UInt8 × Nat} (h : read_octets parts i octets = some result) :
    ∀ part ∈ parts, (Str.parse_u8 part).isSome := by
  induction parts generalizing i octets with
  | nil => simp
  | cons part parts ih =>
      unfold read_octets at h
      split_ifs at h
      split at h
      · cases h
      · rename_i n hn
        intro p hp
        rcases List.mem_cons.mp hp with rfl | hp
        · simp [hn]
        · exact ih h p hp

theorem Zone.covers_reverse_spec {z : Zone} {name : Str} (h : z.covers_reverse name = true) :
    ∃ rev, name = rev ++ ".in-addr.arpa".toList ∧
      ∀ part ∈ rev.splitOn '.', (Str.parse_u8 part).isSome := by
  unfold covers_reverse at h
  split at h
  · cases h
  · rename_i rev hrev
    obtain ⟨suffix, rfl, hbeq⟩ := List.dropSuffix?_eq_some_iff.mp hrev
    split at h
    · cases h
    · rename_i octets quanti hoctets
      exact ⟨rev, by rw [eq_of_beq hbeq], read_octets_parse hoctets⟩

end Answering

end AltKeeper.Dnssd
