import Mathlib.Data.List.Basic

-- Splitting at a separator, beyond the lemmas of core: what is in a piece, and how the pieces of a
-- joined list come from those of its parts.
namespace Split

variable {α : Type} [DecidableEq α] {a : α}

theorem cons_ne {x : α} (h : x ≠ a) (xs : List α) :
    ∃ piece pieces, xs.splitOn a = piece :: pieces ∧
      (x :: xs).splitOn a = (x :: piece) :: pieces := by
  obtain ⟨piece, pieces, hsplit⟩ := List.exists_cons_of_ne_nil (List.splitOn_ne_nil a xs)
  refine ⟨piece, pieces, hsplit, ?_⟩
  rw [List.splitOn_cons_eq_if_modifyHead, if_neg (by simpa using h), hsplit]
  rfl

theorem cons_self (xs : List α) : (a :: xs).splitOn a = [] :: xs.splitOn a := by
  rw [List.splitOn_cons_eq_if_modifyHead, if_pos (by simp)]

theorem mem_of_mem_piece {xs piece : List α} (hpiece : piece ∈ xs.splitOn a) :
    ∀ x ∈ piece, x ∈ xs ∧ x ≠ a := by
  induction xs generalizing piece with
  | nil =>
      have hnil : piece = [] := by simpa [List.splitOn_nil] using hpiece
      simp [hnil]
  | cons y ys ih =>
      intro x hx
      by_cases hy : y = a
      · subst hy
        rw [cons_self, List.mem_cons] at hpiece
        rcases hpiece with rfl | hpiece
        · cases hx
        · exact ⟨List.mem_cons_of_mem _ (ih hpiece x hx).1, (ih hpiece x hx).2⟩
      · obtain ⟨head, tail, hsplit, hcons⟩ := cons_ne hy ys
        rw [hcons, List.mem_cons] at hpiece
        rcases hpiece with rfl | hpiece
        · rcases List.mem_cons.mp hx with rfl | hx
          · exact ⟨List.mem_cons_self, hy⟩
          · have := @ih head (by simp [hsplit]) x hx
            exact ⟨List.mem_cons_of_mem _ this.1, this.2⟩
        · have := @ih piece (by simp [hsplit, hpiece]) x hx
          exact ⟨List.mem_cons_of_mem _ this.1, this.2⟩

omit [DecidableEq α] in
theorem infix_intercalate {parts : List (List α)} {part : List α} (h : part ∈ parts) :
    part <:+: [a].intercalate parts := by
  induction parts with
  | nil => cases h
  | cons head parts ih =>
      cases parts with
      | nil => simp [List.mem_singleton.mp h]
      | cons next parts =>
          rw [List.intercalate_cons_of_ne_nil (by simp)]
          rcases List.mem_cons.mp h with rfl | h
          · rw [List.append_assoc]
            exact (List.prefix_append _ _).isInfix
          · exact (ih h).trans (List.suffix_append _ _).isInfix

theorem infix_of_mem {xs piece : List α} (hpiece : piece ∈ xs.splitOn a) : piece <:+: xs := by
  have h := @infix_intercalate _ a _ _ hpiece
  rwa [List.intercalate_splitOn] at h

theorem intercalate_eq_flatMap (parts : List (List α)) (hne : parts ≠ []) :
    ([a].intercalate parts).splitOn a = parts.flatMap (·.splitOn a) := by
  induction parts with
  | nil => exact absurd rfl hne
  | cons part parts ih =>
      cases parts with
      | nil => simp
      | cons next parts =>
          simp only [List.intercalate_cons_cons, List.append_assoc, List.singleton_append] at ih ⊢
          rw [List.splitOn_append_cons_self, ih (by simp)]
          rfl

omit [DecidableEq α] in
theorem intercalate_append {as bs : List (List α)} (ha : as ≠ []) (hb : bs ≠ []) :
    [a].intercalate (as ++ bs) = [a].intercalate as ++ a :: [a].intercalate bs := by
  induction as with
  | nil => exact absurd rfl ha
  | cons head as ih =>
      cases as with
      | nil => simp [List.intercalate_cons_of_ne_nil hb]
      | cons next as =>
          rw [List.cons_append, List.cons_append, List.intercalate_cons_cons,
            ← List.cons_append, ih (by simp), List.intercalate_cons_cons]
          simp

theorem map {f : α → α} (hf : ∀ x, f x = a ↔ x = a) (xs : List α) :
    (xs.map f).splitOn a = (xs.splitOn a).map (List.map f) := by
  induction xs with
  | nil => rfl
  | cons x xs ih =>
      rw [List.map_cons]
      by_cases hx : x = a
      · rw [(hf x).mpr hx, hx, cons_self, cons_self, ih]
        rfl
      · obtain ⟨piece, pieces, hsplit, hcons⟩ := cons_ne hx xs
        obtain ⟨piece', pieces', hsplit', hcons'⟩ := cons_ne (fun h => hx ((hf x).mp h)) (xs.map f)
        rw [ih, hsplit, List.map_cons] at hsplit'
        obtain ⟨rfl, rfl⟩ := List.cons.inj hsplit'
        rw [hcons, hcons', List.map_cons, List.map_cons]

theorem headD_iff {s name : List α} :
    (s.splitOn a).headD [] = name ↔ a ∉ name ∧ (s = name ∨ ∃ rest, s = name ++ a :: rest) := by
  constructor
  · rintro rfl
    by_cases ha : a ∈ s
    · obtain ⟨before, rest, rfl, hbefore⟩ := List.eq_append_cons_of_mem ha
      rw [List.splitOn_append_cons_self_of_not_mem hbefore]
      exact ⟨hbefore, .inr ⟨rest, rfl⟩⟩
    · rw [List.splitOn_eq_singleton ha]
      exact ⟨ha, .inl rfl⟩
  · rintro ⟨ha, rfl | ⟨rest, rfl⟩⟩
    · rw [List.splitOn_eq_singleton ha]
      rfl
    · rw [List.splitOn_append_cons_self_of_not_mem ha]
      rfl

end Split
