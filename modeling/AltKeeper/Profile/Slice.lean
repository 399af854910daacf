import AltKeeper.Profile

-- Where the XML of a profile begins and ends among its bytes.
namespace AltKeeper.Profile

variable {w raw : Octets}

def At (w raw : Octets) (i : Nat) : Prop := (raw.drop i).take w.length = w

-- The slice that the parser takes is one of the profile.
def InRange (raw : Octets) : Prop :=
  ∀ start last, position XML_START raw = some start → rposition PLIST_END raw = some last →
    start ≤ last + 8 ∧ last + 8 ≤ raw.length

-- Both marks are there, and every `</plist>` ends before any `<?xml` begins.
def Backwards (raw : Octets) : Prop :=
  (∃ i, At XML_START raw i) ∧ (∃ j, At PLIST_END raw j) ∧
    ∀ i j, At XML_START raw i → At PLIST_END raw j → j + 8 < i

section Search

theorem At.le {i : Nat} (h : At w raw i) (hw : w ≠ []) : i + w.length ≤ raw.length := by
  have hlength := congrArg List.length h
  have hpos := List.length_pos_of_ne_nil hw
  rw [List.length_take, List.length_drop] at hlength
  omega

theorem At.mem_range {i : Nat} (h : At w raw i) (hw : w ≠ []) :
    i ∈ List.range (raw.length + 1 - w.length) := by
  have hle := h.le hw
  rw [List.mem_range]
  omega

theorem position_some {i : Nat} (h : position w raw = some i) :
    At w raw i ∧ i + w.length ≤ raw.length ∧ ∀ j < i, ¬ At w raw j := by
  obtain ⟨hat, hrange, hbefore⟩ := List.find?_range_eq_some.mp h
  rw [List.mem_range] at hrange
  refine ⟨eq_of_beq hat, by omega, fun j hj hat' => ?_⟩
  have hnot := hbefore j hj
  rw [beq_iff_eq.mpr hat'] at hnot
  cases hnot

theorem position_none (h : position w raw = none) (hw : w ≠ []) (i : Nat) : ¬ At w raw i := by
  intro hat
  have hnot := List.find?_eq_none.mp h i (hat.mem_range hw)
  exact hnot (beq_iff_eq.mpr hat)

theorem rposition_some {i : Nat} (h : rposition w raw = some i) (hw : w ≠ []) :
    At w raw i ∧ i + w.length ≤ raw.length ∧ ∀ j, i < j → ¬ At w raw j := by
  obtain ⟨hat, as, bs, hsplit, hbefore⟩ := List.find?_eq_some_iff_append.mp h
  have hat' : At w raw i := eq_of_beq hat
  refine ⟨hat', hat'.le hw, fun j hj hat'' => ?_⟩
  have hmem := List.mem_reverse.mpr (hat''.mem_range hw)
  rw [hsplit] at hmem
  rcases List.mem_append.mp hmem with has | hrest
  · have hnot := hbefore j has
    rw [beq_iff_eq.mpr hat''] at hnot
    cases hnot
  rcases List.mem_cons.mp hrest with rfl | hbs
  · exact Nat.lt_irrefl j hj
  · -- what is searched later stands before
    have hsorted : (as ++ i :: bs).Pairwise (· > ·) := by
      rw [← hsplit, List.pairwise_reverse]
      exact List.pairwise_lt_range
    have hlater := (List.pairwise_append.mp hsorted).2.1
    exact Nat.lt_asymm hj ((List.pairwise_cons.mp hlater).1 j hbs)

theorem rposition_none (h : rposition w raw = none) (hw : w ≠ []) (i : Nat) : ¬ At w raw i := by
  intro hat
  have hnot := List.find?_eq_none.mp h i (List.mem_reverse.mpr (hat.mem_range hw))
  exact hnot (beq_iff_eq.mpr hat)

end Search

section Parse

theorem XML_START_ne_nil : XML_START ≠ [] := by decide

theorem PLIST_END_ne_nil : PLIST_END ≠ [] := by decide

theorem backwards_iff : Backwards raw ↔ ∃ start last,
    position XML_START raw = some start ∧ rposition PLIST_END raw = some last ∧ last + 8 < start := by
  constructor
  · rintro ⟨⟨i, hi⟩, ⟨j, hj⟩, hbefore⟩
    cases hstart : position XML_START raw with
    | none => exact absurd hi (position_none hstart XML_START_ne_nil i)
    | some start =>
        cases hlast : rposition PLIST_END raw with
        | none => exact absurd hj (rposition_none hlast PLIST_END_ne_nil j)
        | some last =>
            exact ⟨start, last, rfl, rfl, hbefore start last (position_some hstart).1
              (rposition_some hlast PLIST_END_ne_nil).1⟩
  · rintro ⟨start, last, hstart, hlast, hlt⟩
    obtain ⟨hat, -, hfirst⟩ := position_some hstart
    obtain ⟨hat', -, hfinal⟩ := rposition_some hlast PLIST_END_ne_nil
    refine ⟨⟨start, hat⟩, ⟨last, hat'⟩, fun i j hi hj => ?_⟩
    have hi' : start ≤ i := Nat.le_of_not_lt fun hlt => hfirst i hlt hi
    have hj' : j ≤ last := Nat.le_of_not_lt fun hlt => hfinal j hlt hj
    omega

theorem in_range_iff : InRange raw ↔ ¬ Backwards raw := by
  rw [backwards_iff]
  constructor
  · rintro hrange ⟨start, last, hstart, hlast, hlt⟩
    have hle := (hrange start last hstart hlast).1
    omega
  · intro hforwards start last hstart hlast
    have hend := (rposition_some hlast PLIST_END_ne_nil).2.1
    refine ⟨Nat.le_of_not_lt fun hlt => hforwards ⟨start, last, hstart, hlast, hlt⟩, hend⟩

-- The parser panics exactly on a profile whose marks are the wrong way round.
theorem parse_none_iff (from_reader : Octets → Option Plist) (raw : Octets) :
    parse from_reader raw = none ↔ Backwards raw := by
  rw [backwards_iff, parse, plist_slice]
  cases hstart : position XML_START raw with
  | none => simp
  | some start =>
      cases hlast : rposition PLIST_END raw with
      | none => simp
      | some last =>
          by_cases hlt : last + 8 < start
          · simp [hlt]
          · simp [hlt]

theorem parse_safe_iff (from_reader : Octets → Option Plist) (raw : Octets) :
    (parse from_reader raw).isSome ∧ InRange raw ↔ ¬ Backwards raw := by
  rw [in_range_iff, Option.isSome_iff_ne_none, ne_eq, parse_none_iff, and_self]

theorem parse_unsafe : parse (fun _ => none) (Utf8.encode "</plist>x<?xml".toList) = none ∧
    ¬ InRange (Utf8.encode "</plist>x<?xml".toList) := by
  have hstart : position XML_START (Utf8.encode "</plist>x<?xml".toList) = some 9 := by decide
  have hlast : rposition PLIST_END (Utf8.encode "</plist>x<?xml".toList) = some 0 := by decide
  have hback : Backwards (Utf8.encode "</plist>x<?xml".toList) :=
    backwards_iff.mpr ⟨9, 0, hstart, hlast, by decide⟩
  exact ⟨(parse_none_iff _ _).mpr hback, fun h => in_range_iff.mp h hback⟩

end Parse

end AltKeeper.Profile
