import Mathlib.Data.List.Basic
import Mathlib.Data.List.Induction
import Mathlib.Order.Lattice

-- For each key of a list the element of greatest rank, kept up to date as the list is scanned.
namespace AltKeeper.Greatest

variable {α κ β : Type} [LinearOrder β] (key : α → Option κ) (rank : α → β)

-- No element of the key ranks above `a`, and none before it ranks as high.
def Leads (items : List α) (k : κ) (a : α) : Prop :=
  ∃ before after, items = before ++ a :: after ∧ key a = some k ∧
    (∀ b ∈ before, key b = some k → rank b < rank a) ∧
    ∀ b ∈ after, key b = some k → rank b ≤ rank a

section Leading

variable {key : α → Option κ} {rank : α → β} {items items' : List α} {k : κ} {a b : α}

theorem Leads.mem (h : Leads key rank items k a) : a ∈ items := by
  obtain ⟨before, after, rfl, -⟩ := h
  exact List.mem_append_right _ List.mem_cons_self

theorem Leads.rank_le (h : Leads key rank items k a) (hb : b ∈ items) (hk : key b = some k) :
    rank b ≤ rank a := by
  obtain ⟨before, after, rfl, -, hbefore, hafter⟩ := h
  rcases List.mem_append.mp hb with hb | hb
  · exact le_of_lt (hbefore b hb hk)
  · rcases List.mem_cons.mp hb with rfl | hb
    · exact le_refl _
    · exact hafter b hb hk

-- Whatever the order of the list, the elements that lead for a key are of one rank.
theorem Leads.rank_eq (h : Leads key rank items k a) (h' : Leads key rank items' k b)
    (hperm : items.Perm items') : rank a = rank b := by
  have hkey : key a = some k := by
    obtain ⟨before, after, -, hkey, -⟩ := h
    exact hkey
  have hkey' : key b = some k := by
    obtain ⟨before, after, -, hkey, -⟩ := h'
    exact hkey
  exact le_antisymm (h'.rank_le (hperm.mem_iff.mp h.mem) hkey)
    (h.rank_le (hperm.mem_iff.mpr h'.mem) hkey')

theorem Leads.unique (ha : Leads key rank items k a) (hb : Leads key rank items k b) : a = b := by
  obtain ⟨before, after, hitems, hkey, hbefore, hafter⟩ := ha
  obtain ⟨before', after', hitems', hkey', hbefore', hafter'⟩ := hb
  rcases List.append_eq_append_iff.mp (hitems.symm.trans hitems') with
    ⟨between, rfl, heq⟩ | ⟨between, rfl, heq⟩
  · cases between with
    | nil => exact (List.cons.inj heq).1
    | cons c between =>
        obtain ⟨rfl, rfl⟩ := List.cons.inj heq
        have hlt := hbefore' a (List.mem_append_right _ List.mem_cons_self) hkey
        have hle := hafter b (List.mem_append_right _ List.mem_cons_self) hkey'
        exact absurd hlt (not_lt_of_ge hle)
  · cases between with
    | nil => exact (List.cons.inj heq).1.symm
    | cons c between =>
        obtain ⟨rfl, rfl⟩ := List.cons.inj heq
        have hlt := hbefore b (List.mem_append_right _ List.mem_cons_self) hkey'
        have hle := hafter' a (List.mem_append_right _ List.mem_cons_self) hkey
        exact absurd hlt (not_lt_of_ge hle)

theorem Leads.append (h : Leads key rank items k b) (ha : key a = some k → rank a ≤ rank b) :
    Leads key rank (items ++ [a]) k b := by
  obtain ⟨before, after, rfl, hkey, hbefore, hafter⟩ := h
  refine ⟨before, after ++ [a], by simp, hkey, hbefore, fun c hc => ?_⟩
  rcases List.mem_append.mp hc with hc | hc
  · exact hafter c hc
  · rw [List.mem_singleton.mp hc]
    exact ha

theorem leads_last (ha : key a = some k) (h : ∀ b ∈ items, key b = some k → rank b < rank a) :
    Leads key rank (items ++ [a]) k a :=
  ⟨items, [], rfl, ha, h, fun _ hb => absurd hb List.not_mem_nil⟩

end Leading

variable [DecidableEq κ]

-- The element kept for the key of `a`, replaced when `a` ranks above it; `none` when there is none.
def raise (a : α) : List α → Option (List α)
  | [] => none
  | b :: kept =>
      if (key a).isSome ∧ key b = key a then some ((if rank b < rank a then a else b) :: kept)
      else (raise a kept).map (b :: ·)

def scan (items : List α) : List α :=
  items.foldl (fun kept a => (raise key rank a kept).getD (kept ++ [a])) []

-- The keys in the order in which each comes for the first time; a missing key counts every time.
def firsts : List κ → List (Option κ) → List (Option κ)
  | _, [] => []
  | seen, none :: keys => none :: firsts seen keys
  | seen, some k :: keys =>
      if k ∈ seen then firsts seen keys else some k :: firsts (k :: seen) keys

structure Kept (items kept : List α) : Prop where
  keys : kept.map key = firsts [] (items.map key)
  keyless : kept.filter (fun a => key a = none) = items.filter (fun a => key a = none)
  leads : ∀ a ∈ kept, ∀ k, key a = some k → Leads key rank items k a

section Firsts

variable {seen : List κ} {keys : List (Option κ)} {k : κ}

theorem mem_firsts : some k ∈ firsts seen keys ↔ k ∉ seen ∧ some k ∈ keys := by
  induction keys generalizing seen with
  | nil => simp [firsts]
  | cons key keys ih =>
      cases key with
      | none => simp [firsts, ih]
      | some l =>
          by_cases hl : l ∈ seen
          · rw [firsts, if_pos hl, ih, List.mem_cons]
            constructor
            · exact fun h => ⟨h.1, .inr h.2⟩
            · rintro ⟨hk, heq | hmem⟩
              · exact absurd (Option.some.inj heq ▸ hl) hk
              · exact ⟨hk, hmem⟩
          · rw [firsts, if_neg hl, List.mem_cons, ih, List.mem_cons, List.mem_cons, Option.some.injEq]
            by_cases hkl : k = l
            · simp [hkl, hl]
            · simp [hkl]

theorem count_firsts (h : some k ∈ keys) (hseen : k ∉ seen) :
    (firsts seen keys).count (some k) = 1 := by
  induction keys generalizing seen with
  | nil => exact absurd h List.not_mem_nil
  | cons key keys ih =>
      by_cases hkey : key = some k
      · rw [hkey, firsts, if_neg hseen, List.count_cons_self]
        have hnone : some k ∉ firsts (k :: seen) keys := by simp [mem_firsts]
        rw [List.count_eq_zero.mpr hnone]
      · have hmem := (List.mem_cons.mp h).resolve_left fun heq => hkey heq.symm
        cases key with
        | none =>
            rw [firsts, List.count_cons_of_ne hkey]
            exact ih hmem hseen
        | some l =>
            have hne : k ≠ l := fun heq => hkey (congrArg some heq.symm)
            by_cases hl : l ∈ seen
            · rw [firsts, if_pos hl]
              exact ih hmem hseen
            · rw [firsts, if_neg hl, List.count_cons_of_ne hkey]
              exact ih hmem (by simp [hne, hseen])

theorem nodup_firsts : ((firsts seen keys).filterMap id).Nodup := by
  induction keys generalizing seen with
  | nil => exact List.nodup_nil
  | cons key keys ih =>
      cases key with
      | none => exact ih
      | some k =>
          rw [firsts]
          split
          · exact ih
          · rw [List.filterMap_cons_some (show id (some k) = some k from rfl), List.nodup_cons]
            refine ⟨fun hmem => ?_, ih⟩
            obtain ⟨l, hl, hkl⟩ := List.mem_filterMap.mp hmem
            obtain rfl : l = some k := hkl
            exact (mem_firsts.mp hl).1 List.mem_cons_self

theorem firsts_append_none : firsts seen (keys ++ [none]) = firsts seen keys ++ [none] := by
  induction keys generalizing seen with
  | nil => rfl
  | cons key keys ih =>
      cases key with
      | none => rw [List.cons_append, firsts, firsts, ih, List.cons_append]
      | some l =>
          rw [List.cons_append, firsts, firsts]
          split
          · exact ih
          · rw [ih, List.cons_append]

theorem firsts_append_seen (h : k ∈ seen ∨ some k ∈ keys) :
    firsts seen (keys ++ [some k]) = firsts seen keys := by
  induction keys generalizing seen with
  | nil => simpa [firsts] using h
  | cons key keys ih =>
      cases key with
      | none =>
          rw [List.cons_append, firsts, firsts, ih (by simpa using h)]
      | some l =>
          rw [List.cons_append, firsts, firsts]
          by_cases hl : l ∈ seen
          · rw [if_pos hl, if_pos hl]
            apply ih
            rcases h with hk | hk
            · exact .inl hk
            · rcases List.mem_cons.mp hk with heq | hk
              · exact .inl (Option.some.inj heq ▸ hl)
              · exact .inr hk
          · rw [if_neg hl, if_neg hl, ih]
            rcases h with hk | hk
            · exact .inl (List.mem_cons_of_mem _ hk)
            · rcases List.mem_cons.mp hk with heq | hk
              · exact .inl (Option.some.inj heq ▸ List.mem_cons_self)
              · exact .inr hk

theorem firsts_append_new (hseen : k ∉ seen) (h : some k ∉ keys) :
    firsts seen (keys ++ [some k]) = firsts seen keys ++ [some k] := by
  induction keys generalizing seen with
  | nil => simp [firsts, hseen]
  | cons key keys ih =>
      obtain ⟨hkey, hkeys⟩ := List.ne_and_not_mem_of_not_mem_cons h
      cases key with
      | none => rw [List.cons_append, firsts, firsts, ih hseen hkeys, List.cons_append]
      | some l =>
          have hne : k ≠ l := fun heq => hkey (congrArg some heq)
          rw [List.cons_append, firsts, firsts]
          split
          · exact ih hseen hkeys
          · rw [ih (by simp [hne, hseen]) hkeys, List.cons_append]

end Firsts

section Scan

variable {key : α → Option κ} {rank : α → β} {items kept kept' : List α} {a : α}

theorem raise_none (h : raise key rank a kept = none) :
    key a = none ∨ ∀ b ∈ kept, key b ≠ key a := by
  induction kept with
  | nil => exact .inr fun b hb => absurd hb List.not_mem_nil
  | cons b kept ih =>
      rw [raise] at h
      split at h
      case isTrue => cases h
      case isFalse hother =>
        rcases ih (Option.map_eq_none_iff.mp h) with hnone | hall
        · exact .inl hnone
        · by_cases hkey : key a = none
          · exact .inl hkey
          · refine .inr fun c hc => ?_
            rcases List.mem_cons.mp hc with rfl | hc
            · exact fun heq => hother ⟨Option.isSome_iff_ne_none.mpr hkey, heq⟩
            · exact hall c hc

theorem raise_some (h : raise key rank a kept = some kept') :
    ∃ k before b after, key a = some k ∧ key b = some k ∧ kept = before ++ b :: after ∧
      kept' = before ++ (if rank b < rank a then a else b) :: after := by
  induction kept generalizing kept' with
  | nil => cases h
  | cons b kept ih =>
      rw [raise] at h
      split at h
      case isTrue hsame =>
        obtain ⟨k, hk⟩ := Option.isSome_iff_exists.mp hsame.1
        exact ⟨k, [], b, kept, hk, hsame.2.trans hk, rfl, (Option.some.inj h).symm⟩
      case isFalse =>
        obtain ⟨raised, hraised, rfl⟩ := Option.map_eq_some_iff.mp h
        obtain ⟨k, before, c, after, ha, hc, rfl, rfl⟩ := ih hraised
        exact ⟨k, b :: before, c, after, ha, hc, rfl, rfl⟩

theorem Kept.mem_keys {k : κ} (h : Kept key rank items kept) :
    some k ∈ kept.map key ↔ some k ∈ items.map key := by
  rw [h.keys, mem_firsts, and_iff_right List.not_mem_nil]

-- An element without a key, or with a new one, is added.
theorem Kept.add (h : Kept key rank items kept) (hnew : key a = none ∨ ∀ b ∈ kept, key b ≠ key a) :
    Kept key rank (items ++ [a]) (kept ++ [a]) := by
  have hfirst (k : κ) (hk : key a = some k) : some k ∉ items.map key := by
    rw [← h.mem_keys, List.mem_map]
    rintro ⟨b, hb, hkey⟩
    rcases hnew with hnone | hnew
    · exact absurd (hk.symm.trans hnone) (Option.some_ne_none k)
    · exact hnew b hb (hkey.trans hk.symm)
  constructor
  case keys =>
    rw [List.map_append, List.map_append, h.keys, List.map_singleton]
    cases hk : key a with
    | none => rw [firsts_append_none]
    | some k => rw [firsts_append_new List.not_mem_nil (hfirst k hk)]
  case keyless => rw [List.filter_append, List.filter_append, h.keyless]
  case leads =>
    intro b hb k hkey
    rcases List.mem_append.mp hb with hb | hb
    · refine (h.leads b hb k hkey).append fun ha => ?_
      exact absurd (List.mem_map.mpr ⟨b, (h.leads b hb k hkey).mem, hkey⟩) (hfirst k ha)
    · rw [List.mem_singleton.mp hb] at hkey ⊢
      refine leads_last hkey fun c hc hck => ?_
      exact absurd (List.mem_map.mpr ⟨c, hc, hck⟩) (hfirst k hkey)

-- An element whose key is there takes the place of the one kept, or leaves it.
theorem Kept.replace {before after : List α} {b : α} {k : κ}
    (h : Kept key rank items (before ++ b :: after)) (ha : key a = some k) (hb : key b = some k) :
    Kept key rank (items ++ [a]) (before ++ (if rank b < rank a then a else b) :: after) := by
  have hmem : b ∈ before ++ b :: after := List.mem_append_right _ List.mem_cons_self
  have hlead := h.leads b hmem k hb
  have hplaced : key (if rank b < rank a then a else b) = some k := by split <;> assumption
  have hsome : ¬ key (if rank b < rank a then a else b) = none := by simp [hplaced]
  have hkept : some k ∈ items.map key := List.mem_map.mpr ⟨b, hlead.mem, hb⟩
  -- the key was kept once, so nobody else has it
  have hother (c : α) (hc : c ∈ before ++ after) : key c ≠ some k := by
    intro hck
    have hcount : ((before ++ b :: after).map key).count (some k) = 1 := by
      rw [h.keys]
      exact count_firsts hkept List.not_mem_nil
    rw [List.map_append, List.map_cons, hb, List.count_append, List.count_cons_self] at hcount
    have hzero : ((before ++ after).map key).count (some k) = 0 := by
      rw [List.map_append, List.count_append]
      omega
    exact List.count_eq_zero.mp hzero (List.mem_map.mpr ⟨c, hc, hck⟩)
  constructor
  case keys =>
    have hkeys := h.keys
    rw [List.map_append, List.map_cons, hb] at hkeys
    rw [List.map_append, List.map_cons, hplaced, hkeys, List.map_append, List.map_singleton, ha,
      firsts_append_seen (.inr hkept)]
  case keyless =>
    have hkeyless := h.keyless
    rw [List.filter_append, List.filter_cons_of_neg (by simp [hb])] at hkeyless
    rw [List.filter_append, List.filter_cons_of_neg (by simp [hplaced]), hkeyless, List.filter_append,
      List.filter_cons_of_neg (by simp [ha]), List.filter_nil, List.append_nil]
  case leads =>
    intro c hc l hl
    rcases List.mem_append.mp hc with hbefore | hc
    · refine (h.leads c (List.mem_append_left _ hbefore) l hl).append fun hal => ?_
      rw [hal] at ha
      exact absurd (hl.trans ha) (hother c (List.mem_append_left _ hbefore))
    rcases List.mem_cons.mp hc with rfl | hafter
    · obtain rfl : k = l := Option.some.inj (hplaced.symm.trans hl)
      by_cases hlt : rank b < rank a
      · rw [if_pos hlt]
        exact leads_last ha fun c hc hck => lt_of_le_of_lt (hlead.rank_le hc hck) hlt
      · rw [if_neg hlt]
        exact hlead.append fun _ => le_of_not_gt hlt
    · have hin : c ∈ before ++ b :: after := List.mem_append_right _ (List.mem_cons_of_mem _ hafter)
      refine (h.leads c hin l hl).append fun hal => ?_
      rw [hal] at ha
      exact absurd (hl.trans ha) (hother c (List.mem_append_right _ hafter))

theorem Kept.step (h : Kept key rank items kept) (a : α) :
    Kept key rank (items ++ [a]) ((raise key rank a kept).getD (kept ++ [a])) := by
  cases hraise : raise key rank a kept with
  | none => exact h.add (raise_none hraise)
  | some kept' =>
      obtain ⟨k, before, b, after, ha, hb, rfl, rfl⟩ := raise_some hraise
      exact h.replace ha hb

theorem scan_kept (key : α → Option κ) (rank : α → β) (items : List α) :
    Kept key rank items (scan key rank items) := by
  induction items using List.reverseRecOn with
  | nil => exact ⟨rfl, rfl, fun _ ha => absurd ha List.not_mem_nil⟩
  | append_singleton items a ih =>
      rw [scan, List.foldl_append]
      exact ih.step a

end Scan

section Results

variable {key : α → Option κ} {rank : α → β} {items kept : List α}

theorem Kept.subset (h : Kept key rank items kept) : ∀ a ∈ kept, a ∈ items := by
  intro a ha
  cases hk : key a with
  | some k => exact (h.leads a ha k hk).mem
  | none =>
      have hmem : a ∈ kept.filter (fun a => key a = none) := List.mem_filter.mpr ⟨ha, by simp [hk]⟩
      rw [h.keyless] at hmem
      exact List.mem_of_mem_filter hmem

theorem Kept.nodup (h : Kept key rank items kept) : (kept.filterMap key).Nodup := by
  have hkeys : kept.filterMap key = (kept.map key).filterMap id := by simp [List.filterMap_map]
  rw [hkeys, h.keys]
  exact nodup_firsts

theorem Kept.one {k : κ} (h : Kept key rank items kept) (hk : some k ∈ items.map key) :
    ∃ a, kept.filter (fun a => key a = some k) = [a] ∧ Leads key rank items k a := by
  have hcount : (kept.map key).count (some k) = 1 := by
    rw [h.keys]
    exact count_firsts hk List.not_mem_nil
  have hlength : (kept.filter (fun a => key a = some k)).length = 1 := by
    rw [← List.countP_eq_length_filter, ← hcount, List.count, List.countP_map]
    exact List.countP_congr fun a _ => by simp
  obtain ⟨a, ha⟩ := List.length_eq_one_iff.mp hlength
  have hmem : a ∈ kept.filter (fun a => key a = some k) := by
    rw [ha]
    exact List.mem_singleton_self a
  obtain ⟨hin, hkey⟩ := List.mem_filter.mp hmem
  exact ⟨a, ha, h.leads a hin k (of_decide_eq_true hkey)⟩

theorem Kept.mem_iff {k : κ} {a : α} (h : Kept key rank items kept) :
    a ∈ kept ∧ key a = some k ↔ Leads key rank items k a := by
  constructor
  · exact fun ha => h.leads a ha.1 k ha.2
  · intro hlead
    have hkey : key a = some k := by
      obtain ⟨before, after, -, hkey, -⟩ := hlead
      exact hkey
    obtain ⟨b, hb, hlead'⟩ := h.one (List.mem_map.mpr ⟨a, hlead.mem, hkey⟩)
    obtain rfl := hlead.unique hlead'
    have hmem : a ∈ kept.filter (fun c => key c = some k) := by
      rw [hb]
      exact List.mem_singleton_self a
    exact ⟨List.mem_of_mem_filter hmem, hkey⟩

end Results

end AltKeeper.Greatest
