import AltKeeper.Renew.Due
import AltKeeper.Page

-- The rows of the page, and the renewals that they announce.
namespace AltKeeper.Web

open Profile (PhoneProfile LatestOf latest_by_bundle latest_kept)

section Rows

variable {ext : Ext} {team : Str} {now : Int} {profiles : List PhoneProfile}
  {views : List AppView} {trace : Prog.Trace Resp}

def row_of (ext : Ext) (team : Str) (now : Int) (p : PhoneProfile) : Option AppView :=
  p.bundle_id.map fun bundle => {
    bundle
    label := label_of bundle team
    days := days_at now p
    expires := expires_text ext p
    level := level_for (days_at now p) }

theorem app_rows_runs (run : (app_rows ext team profiles).Runs trace views)
    (hclock : ClockAt now trace) : views = profiles.filterMap (row_of ext team now) := by
  induction profiles generalizing trace views with
  | nil =>
      obtain ⟨-, rfl⟩ := run
      rfl
  | cons p profiles ih =>
      cases hbundle : p.bundle_id with
      | none =>
          rw [app_rows, hbundle] at run
          rw [ih run hclock, List.filterMap_cons_none (by simp [row_of, hbundle])]
      | some bundle =>
          rw [app_rows, hbundle] at run
          obtain ⟨looking, days, tail, rfl, hlooking, htail⟩ := (Prog.runs_bind _ _ _ _).mp run
          obtain ⟨rest, others, _, rfl, hrest, rfl, rfl⟩ := (Prog.runs_bind _ _ _ _).mp htail
          obtain ⟨now', rfl, hread⟩ := days_left_runs hlooking
          rw [List.append_nil] at hclock
          have hothers := ih hrest fun t ht => hclock t (List.mem_append_right _ ht)
          have hdays : (p.days_left now').getD (-1) = days_at now p := by
            cases hdate : p.expires with
            | none => exact days_at_undated hdate now' now
            | some x =>
                have hnow := hclock now' (List.mem_append_left _ (hread (by simp [hdate])))
                rw [hnow]
                rfl
          rw [hothers, List.filterMap_cons_some (by rw [row_of, hbundle]; rfl), hdays]

theorem level_for_ok (days : Int) : level_for days ≠ .ok ↔ days ≤ 3 := by
  unfold level_for
  split
  · simp
    omega
  · split <;> simp <;> omega

theorem row_le_trans (a b c : AppView) (hab : row_le a b = true) (hbc : row_le b c = true) :
    row_le a c = true := by
  simp only [row_le, Bool.or_eq_true, Bool.and_eq_true, decide_eq_true_eq, beq_iff_eq] at *
  rcases hab with hab | ⟨hab, hlabel⟩
  · left
    omega
  · rcases hbc with hbc | ⟨hbc, hlabel'⟩
    · left
      omega
    · exact .inr ⟨hab.trans hbc, le_trans hlabel hlabel'⟩

theorem row_le_total (a b : AppView) : (row_le a b || row_le b a) = true := by
  simp only [row_le, Bool.or_eq_true, Bool.and_eq_true, decide_eq_true_eq, beq_iff_eq]
  rcases Int.lt_trichotomy a.days b.days with hlt | heq | hgt
  · exact .inl (.inl hlt)
  · rcases le_total a.label b.label with hle | hle
    · exact .inl (.inr ⟨heq, hle⟩)
    · exact .inr (.inr ⟨heq.symm, hle⟩)
  · exact .inr (.inl hgt)

-- The rows are one for each bundle of the team, the most urgent first, and those that are not
-- marked as fine are those due.
structure Agree (team : Str) (profiles : List PhoneProfile) (views : List AppView)
    (due : List (Str × Int)) : Prop where
  once : (views.map (·.bundle)).Nodup
  bundles : ∀ bundle, bundle ∈ views.map (·.bundle) ↔
    some bundle ∈ (of_team team profiles).map (·.bundle_id)
  sorted : views.Pairwise fun a b => a.days < b.days ∨ (a.days = b.days ∧ a.label ≤ b.label)
  due : ∀ bundle, (∃ v ∈ views, v.bundle = bundle ∧ v.level ≠ .ok) ↔ bundle ∈ due.map Prod.fst

theorem row_of_fields {p : PhoneProfile} {v : AppView} (h : row_of ext team now p = some v) :
    p.bundle_id = some v.bundle ∧ v.level = level_for (days_at now p) := by
  obtain ⟨bundle, hbundle, rfl⟩ := Option.map_eq_some_iff.mp h
  exact ⟨hbundle, rfl⟩

theorem rows_bundles (latest : List PhoneProfile) :
    (latest.filterMap (row_of ext team now)).map (·.bundle) = latest.filterMap (·.bundle_id) := by
  rw [List.map_filterMap]
  refine List.filterMap_congr fun p _ => ?_
  rw [row_of, Option.map_map]
  exact Option.map_id' 

-- At one time the page marks what a renewal that is not forced would renew.
theorem app_views_agree {say : Str → Act Unit} {trace' : Prog.Trace Resp} {due : List (Str × Int)}
    (run : (app_views ext profiles team).Runs trace views)
    (run' : (due_loop say false 3 (latest_by_bundle (of_team team profiles))).Runs trace' due)
    (hclock : ClockAt now trace) (hclock' : ClockAt now trace') : Agree team profiles views due := by
  obtain ⟨rows, views', _, rfl, hrows, rfl, rfl⟩ := (Prog.runs_bind _ _ _ _).mp run
  rw [List.append_nil] at hclock
  have hkept := latest_kept (of_team team profiles)
  obtain rfl := app_rows_runs hrows hclock
  obtain rfl := due_loop_at run' hclock'
  have hperm := List.mergeSort_perm
    ((latest_by_bundle (of_team team profiles)).filterMap (row_of ext team now)) row_le
  have hbundles := hperm.map (·.bundle)
  rw [rows_bundles] at hbundles
  constructor
  case once => exact hbundles.nodup_iff.mpr hkept.nodup
  case bundles =>
    intro bundle
    rw [hbundles.mem_iff, ← hkept.mem_keys, List.mem_filterMap, List.mem_map]
  case sorted =>
    refine (List.pairwise_mergeSort row_le_trans row_le_total _).imp fun {a b} hle => ?_
    simpa [row_le] using hle
  case due =>
    intro bundle
    rw [mem_due_iff]
    constructor
    · rintro ⟨v, hv, rfl, hlevel⟩
      obtain ⟨p, hp, hrow⟩ := List.mem_filterMap.mp (hperm.mem_iff.mp hv)
      obtain ⟨hbundle, hlevel'⟩ := row_of_fields hrow
      rw [hlevel', level_for_ok] at hlevel
      exact ⟨p, hkept.leads p hp _ hbundle, .inr hlevel⟩
    · rintro ⟨p, hlatest, hwhen⟩
      obtain ⟨hp, hbundle⟩ := hkept.mem_iff.mpr hlatest
      obtain ⟨v, hrow⟩ : ∃ v, row_of ext team now p = some v := by simp [row_of, hbundle]
      obtain ⟨hbundle', hlevel⟩ := row_of_fields hrow
      refine ⟨v, hperm.mem_iff.mpr (List.mem_filterMap.mpr ⟨p, hp, hrow⟩), ?_, ?_⟩
      · exact Option.some.inj (hbundle'.symm.trans hbundle)
      · rw [hlevel, level_for_ok]
        exact hwhen.resolve_left Bool.false_ne_true

end Rows

section Sample

theorem silent_clock {α : Type} (p : Act α) :
    ClockAt 0 (p.exec (fun (s : Unit) c => (silent c, s)) ()).1 := by
  intro t ht
  obtain ⟨s, hs⟩ := Prog.exec_mem _ _ _ _ ht
  exact hs

def team_profiles : List PhoneProfile := [
  ⟨"U1".toList, [], some "T".toList, some "com.a".toList, some 604800000000000⟩,
  ⟨"U2".toList, [], some "T".toList, some "com.b".toList, none⟩]

theorem app_views_agree_com_b : ∃ trace trace' views due,
    (app_views sample team_profiles "T".toList).Runs trace views ∧
    (due_loop (fun _ => pure ()) false 3 (latest_by_bundle (of_team "T".toList team_profiles))).Runs
      trace' due ∧
    Agree "T".toList team_profiles views due ∧ due.map Prod.fst = ["com.b".toList] := by
  have hrun := Prog.runs_exec (fun (s : Unit) c => (silent c, s))
    (app_views sample team_profiles "T".toList) ()
  have hrun' := Prog.runs_exec (fun (s : Unit) c => (silent c, s))
    (due_loop (fun _ => pure ()) false 3 (latest_by_bundle (of_team "T".toList team_profiles))) ()
  refine ⟨_, _, _, _, hrun, hrun', app_views_agree hrun hrun' (silent_clock _) (silent_clock _), ?_⟩
  decide +kernel

end Sample

end AltKeeper.Web
