import AltKeeper.Profile.Slice

-- The signature around the XML of a profile changes nothing of what is read.
namespace AltKeeper.Profile

variable {w raw pre suf : Octets}

section Marks

-- The first byte of a mark stands nowhere else in it.
def Anchored (w : Octets) : Prop := ∃ c cs, w = c :: cs ∧ c ∉ cs

theorem XML_START_anchored : Anchored XML_START := ⟨60, XML_START.tail, by decide, by decide⟩

theorem PLIST_END_anchored : Anchored PLIST_END := ⟨60, PLIST_END.tail, by decide, by decide⟩

theorem Anchored.ne_nil (hw : Anchored w) : w ≠ [] := by
  obtain ⟨c, cs, rfl, -⟩ := hw
  simp

theorem At.getElem? {i : Nat} (h : At w raw i) {k : Nat} (hk : k < w.length) : raw[i + k]? = w[k]? := by
  have hget := congrArg (·[k]?) h
  simpa [List.getElem?_take, hk] using hget

-- So two of them never overlap.
theorem At.apart {i j : Nat} (hw : Anchored w) (hi : At w raw i) (hj : At w raw j) (hlt : i < j) :
    i + w.length ≤ j := by
  by_contra hover
  have hin : j - i < w.length := by omega
  have hread := hi.getElem? hin
  have hfirst := hj.getElem? (List.length_pos_of_ne_nil hw.ne_nil)
  rw [Nat.add_sub_cancel' (Nat.le_of_lt hlt)] at hread
  rw [Nat.add_zero, hread] at hfirst
  obtain ⟨c, cs, rfl, hc⟩ := hw
  obtain ⟨k, hk⟩ : ∃ k, j - i = k + 1 := ⟨j - i - 1, by omega⟩
  rw [hk, List.getElem?_cons_succ, List.getElem?_cons_zero] at hfirst
  exact hc (List.mem_of_getElem? hfirst)

end Marks

section Seams

theorem at_of_prefix (h : w <+: raw) : At w (pre ++ raw) pre.length := by
  rw [At, List.drop_left]
  exact (List.prefix_iff_eq_take.mp h).symm

theorem at_of_suffix (h : w <:+ raw) : At w (raw ++ suf) (raw.length - w.length) := by
  obtain ⟨before, rfl⟩ := h
  rw [List.append_assoc, List.length_append, Nat.add_sub_cancel]
  exact at_of_prefix (List.prefix_append w suf)

theorem At.infix_left {i : Nat} (h : At w (pre ++ raw) i) (hi : i + w.length ≤ pre.length) : w <:+: pre := by
  have hle : w.length ≤ (pre.drop i).length := by
    rw [List.length_drop]
    omega
  rw [At, List.drop_append_of_le_length (by omega), List.take_append_of_le_length hle] at h
  rw [← h]
  exact (List.take_prefix _ _).isInfix.trans (List.drop_suffix _ _).isInfix

theorem At.infix_right {i : Nat} (h : At w (raw ++ suf) i) (hi : raw.length ≤ i) : w <:+: suf := by
  rw [At, List.drop_append, List.drop_eq_nil_of_le hi, List.nil_append] at h
  rw [← h]
  exact (List.take_prefix _ _).isInfix.trans (List.drop_suffix _ _).isInfix

theorem position_append (hw : Anchored w) (hraw : w <+: raw) (hpre : ¬ w <:+: pre) :
    position w (pre ++ raw) = some pre.length := by
  have hat : At w (pre ++ raw) pre.length := at_of_prefix hraw
  cases hpos : position w (pre ++ raw) with
  | none => exact absurd hat (position_none hpos hw.ne_nil _)
  | some i =>
      obtain ⟨hi, -, hfirst⟩ := position_some hpos
      have hle : i ≤ pre.length := Nat.le_of_not_lt fun hlt => hfirst _ hlt hat
      have hge : pre.length ≤ i := by
        by_contra hlt
        exact hpre (hi.infix_left (hi.apart hw hat (by omega)))
      rw [Nat.le_antisymm hle hge]

theorem rposition_append (hw : Anchored w) (hraw : w <:+ raw) (hsuf : ¬ w <:+: suf) :
    rposition w (raw ++ suf) = some (raw.length - w.length) := by
  have hat : At w (raw ++ suf) (raw.length - w.length) := at_of_suffix hraw
  have hlen := hraw.length_le
  cases hpos : rposition w (raw ++ suf) with
  | none => exact absurd hat (rposition_none hpos hw.ne_nil _)
  | some i =>
      obtain ⟨hi, -, hlast⟩ := rposition_some hpos hw.ne_nil
      have hge : raw.length - w.length ≤ i := Nat.le_of_not_lt fun hlt => hlast _ hlt hat
      have hle : i ≤ raw.length - w.length := by
        by_contra hlt
        have hapart := hat.apart hw hi (by omega)
        exact hsuf (hi.infix_right (by omega))
      rw [Nat.le_antisymm hle hge]

end Seams

section Envelope

variable {d : Octets}

theorem plist_slice_envelope (hstart : XML_START <+: d) (hend : PLIST_END <:+ d)
    (hpre : ¬ XML_START <:+: pre) (hsuf : ¬ PLIST_END <:+: suf) :
    plist_slice (pre ++ d ++ suf) = .found d := by
  have hfirst : position XML_START (pre ++ d ++ suf) = some pre.length := by
    rw [List.append_assoc]
    exact position_append XML_START_anchored (hstart.trans (List.prefix_append d suf)) hpre
  have hlast := rposition_append PLIST_END_anchored (hend.trans (List.suffix_append pre d)) hsuf
  have hlen : PLIST_END.length = 8 := by decide
  have hle := hend.length_le
  rw [hlen] at hlast hle
  have hstop : (pre ++ d).length - 8 + 8 = (pre ++ d).length := by
    rw [List.length_append]
    omega
  have hforwards : ¬ (pre ++ d).length < pre.length := by
    rw [List.length_append]
    omega
  simp only [plist_slice, hfirst, hlast, hstop, hforwards, if_false, List.take_left, List.drop_left]

-- A document is read alike with anything around it that holds no mark of its own.
theorem parse_envelope (from_reader : Octets → Option Plist) (hstart : XML_START <+: d)
    (hend : PLIST_END <:+ d) (hpre : ¬ XML_START <:+: pre) (hsuf : ¬ PLIST_END <:+: suf) :
    parse from_reader (pre ++ d ++ suf) = parse from_reader d := by
  have hslice : plist_slice d = .found d := by
    have hbare := @plist_slice_envelope [] [] d hstart hend (by decide) (by decide)
    rwa [List.nil_append, List.append_nil] at hbare
  rw [parse, parse, plist_slice_envelope hstart hend hpre hsuf, hslice]

-- Marks that are cut at both seams.
theorem parse_envelope_partial :
    parse (fun _ => some (.dictionary [("UUID".toList, .string "A1".toList)]))
        (Utf8.encode "</plist><?xm".toList ++ Utf8.encode "<?xml></plist>".toList ++
          Utf8.encode "/plist><?xml</plist".toList) =
      parse (fun _ => some (.dictionary [("UUID".toList, .string "A1".toList)]))
        (Utf8.encode "<?xml></plist>".toList) := by
  have hstart : XML_START <+: Utf8.encode "<?xml></plist>".toList := by decide +kernel
  have hend : PLIST_END <:+ Utf8.encode "<?xml></plist>".toList := by decide +kernel
  have hpre : ¬ XML_START <:+: Utf8.encode "</plist><?xm".toList := by decide +kernel
  have hsuf : ¬ PLIST_END <:+: Utf8.encode "/plist><?xml</plist".toList := by decide +kernel
  exact parse_envelope _ hstart hend hpre hsuf

end Envelope

end AltKeeper.Profile
