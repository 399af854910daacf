import AltKeeper.Phone.Search
import AltKeeper.Profile.Latest
import AltKeeper.Renew

-- Which bundles a renewal finds due.
namespace AltKeeper

open Profile (PhoneProfile LatestOf latest_by_bundle latest_kept)

-- The days that a profile has left, as the renewal counts them.
def days_at (now : Int) (p : PhoneProfile) : Int := (p.days_left now).getD (-1)

-- Whether the latest profile of the bundle is due; each is looked at at its own time.
def Due (clock : Str → Int) (force : Bool) (min_days : Int) (profiles : List PhoneProfile)
    (bundle : Str) : Prop :=
  ∃ p, LatestOf profiles bundle p ∧ (force = true ∨ days_at (clock bundle) p ≤ min_days)

def due_of (clock : Str → Int) (force : Bool) (min_days : Int) (p : PhoneProfile) :
    Option (Str × Int) :=
  p.bundle_id.bind fun bundle =>
    if force = false ∧ min_days < days_at (clock bundle) p then none
    else some (bundle, days_at (clock bundle) p)

-- The clock was read for the date of each of these profiles.
def Looked (clock : Str → Int) (latest : List PhoneProfile) (trace : Prog.Trace Resp) : Prop :=
  ∀ p ∈ latest, ∀ bundle, p.bundle_id = some bundle → p.expires.isSome →
    ⟨.system_time, clock bundle⟩ ∈ trace

-- The clock stands still.
def ClockAt (now : Int) (trace : Prog.Trace Resp) : Prop := ∀ t : Int, ⟨.system_time, t⟩ ∈ trace → t = now

section Days

variable {p q : PhoneProfile} {now : Int} {trace : Prog.Trace Resp}

theorem as_secs_mono {a b : Int} (h : a ≤ b) : Profile.as_secs a ≤ Profile.as_secs b :=
  Int.ediv_le_ediv (by decide) h

-- A profile that expires no earlier has no fewer days left.
theorem days_at_mono (now : Int) (h : p.when ≤ q.when) (hdate : p.expires.isSome) :
    days_at now p ≤ days_at now q := by
  obtain ⟨x, hx⟩ := Option.isSome_iff_exists.mp hdate
  unfold PhoneProfile.when at h
  rw [hx] at h
  cases hq : q.expires with
  | none =>
      rw [hq] at h
      exact absurd h (not_le_of_gt (WithBot.bot_lt_coe x))
  | some y =>
      rw [hq] at h
      have hle : x ≤ y := WithBot.coe_le_coe.mp h
      simp only [days_at, PhoneProfile.days_left, hx, hq, Option.map_some, Option.getD_some]
      by_cases hx' : now ≤ x
      · rw [if_pos hx', if_pos (by omega)]
        exact Int.ediv_le_ediv (by decide) (as_secs_mono (by omega))
      · rw [if_neg hx']
        have hneg : 0 ≤ Profile.as_secs (now - x) / 86400 :=
          Int.ediv_nonneg (Int.ediv_nonneg (by omega) (by decide)) (by decide)
        by_cases hy' : now ≤ y
        · rw [if_pos hy']
          have hpos : 0 ≤ Profile.as_secs (y - now) / 86400 :=
            Int.ediv_nonneg (Int.ediv_nonneg (by omega) (by decide)) (by decide)
          omega
        · rw [if_neg hy']
          have hback : Profile.as_secs (now - y) / 86400 ≤ Profile.as_secs (now - x) / 86400 :=
            Int.ediv_le_ediv (by decide) (as_secs_mono (by omega))
          omega

theorem days_left_runs {d : Option Int} (run : (days_left p).Runs trace d) :
    ∃ now, d = p.days_left now ∧ (p.expires.isSome → ⟨.system_time, now⟩ ∈ trace) := by
  unfold days_left at run
  cases hdate : p.expires with
  | none =>
      rw [hdate] at run
      obtain ⟨-, rfl⟩ := run
      exact ⟨0, by simp [PhoneProfile.days_left, hdate], by simp⟩
  | some x =>
      rw [hdate] at run
      obtain ⟨now, rest, rfl, -, rfl⟩ := (Prog.runs_perform_bind _ _ _ _).mp run
      exact ⟨now, rfl, fun _ => List.mem_cons_self⟩

theorem days_at_undated (hdate : p.expires = none) (now now' : Int) :
    days_at now p = days_at now' p := by
  simp [days_at, PhoneProfile.days_left, hdate]

end Days

section Loop

variable {say : Str → Act Unit} {force : Bool} {min_days : Int} {latest : List PhoneProfile}
  {clock : Str → Int} {trace : Prog.Trace Resp} {due : List (Str × Int)}

-- What is looked at is the clock at the time of each bundle.
theorem due_of_congr {clock' : Str → Int} {p : PhoneProfile}
    (h : ∀ bundle, p.bundle_id = some bundle → p.expires.isSome → clock bundle = clock' bundle) :
    due_of clock force min_days p = due_of clock' force min_days p := by
  unfold due_of
  cases hbundle : p.bundle_id with
  | none => rfl
  | some bundle =>
      have hdays : days_at (clock bundle) p = days_at (clock' bundle) p := by
        cases hdate : p.expires with
        | none => exact days_at_undated hdate _ _
        | some x => rw [h bundle hbundle (by simp [hdate])]
      simp only [Option.bind_some, hdays]

theorem due_loop_runs (run : (due_loop say force min_days latest).Runs trace due)
    (hnodup : (latest.filterMap (·.bundle_id)).Nodup) :
    ∃ clock, Looked clock latest trace ∧ due = latest.filterMap (due_of clock force min_days) := by
  induction latest generalizing trace due with
  | nil =>
      obtain ⟨rfl, rfl⟩ := run
      exact ⟨fun _ => 0, fun _ hp => absurd hp List.not_mem_nil, rfl⟩
  | cons p latest ih =>
      cases hbundle : p.bundle_id with
      | none =>
          rw [due_loop, hbundle] at run
          obtain ⟨said, _, rest, rfl, -, hrest⟩ := (Prog.runs_bind _ _ _ _).mp run
          rw [List.filterMap_cons_none hbundle] at hnodup
          obtain ⟨clock, hlooked, rfl⟩ := ih hrest hnodup
          refine ⟨clock, fun q hq bundle hq' hdate => ?_, ?_⟩
          · rcases List.mem_cons.mp hq with rfl | hq
            · exact absurd (hq'.symm.trans hbundle) (Option.some_ne_none bundle)
            · exact List.mem_append_right _ (hlooked q hq bundle hq' hdate)
          · rw [List.filterMap_cons_none (by rw [due_of, hbundle]; rfl)]
      | some bundle =>
          rw [due_loop, hbundle] at run
          rw [List.filterMap_cons_some hbundle, List.nodup_cons] at hnodup
          obtain ⟨looking, days, tail, rfl, hlooking, htail⟩ := (Prog.runs_bind _ _ _ _).mp run
          obtain ⟨now, rfl, hread⟩ := days_left_runs hlooking
          -- the rest of the loop, with the time of this bundle set aside
          have hrest (said : Prog.Trace Resp) {rest : Prog.Trace Resp} {others : List (Str × Int)}
              (hrun : (due_loop say force min_days latest).Runs rest others) :
              ∃ clock, clock bundle = now ∧ Looked clock (p :: latest) (looking ++ (said ++ rest)) ∧
                others = latest.filterMap (due_of clock force min_days) := by
            obtain ⟨clock, hlooked, rfl⟩ := ih hrun hnodup.2
            have hother (q : PhoneProfile) (hq : q ∈ latest) (other : Str)
                (hother : q.bundle_id = some other) : other ≠ bundle := by
              rintro rfl
              exact hnodup.1 (List.mem_filterMap.mpr ⟨q, hq, hother⟩)
            refine ⟨Function.update clock bundle now, Function.update_self _ _ _, ?_, ?_⟩
            · intro q hq other hq' hdate
              rcases List.mem_cons.mp hq with rfl | hq
              · obtain rfl := Option.some.inj (hbundle.symm.trans hq')
                rw [Function.update_self]
                exact List.mem_append_left _ (hread hdate)
              · rw [Function.update_of_ne (hother q hq other hq')]
                exact List.mem_append_right _ (List.mem_append_right _ (hlooked q hq other hq' hdate))
            · refine List.filterMap_congr fun q hq => due_of_congr fun other hq' _ => ?_
              rw [Function.update_of_ne (hother q hq other hq')]
          dsimp only at htail
          split at htail
          case isTrue hlate =>
            obtain ⟨said, _, rest, rfl, -, hrun⟩ := (Prog.runs_bind _ _ _ _).mp htail
            obtain ⟨clock, rfl, hlooked, rfl⟩ := hrest said hrun
            refine ⟨clock, hlooked, ?_⟩
            rw [List.filterMap_cons_none]
            rw [due_of, hbundle, Option.bind_some]
            exact if_pos hlate
          case isFalse hdue =>
            obtain ⟨rest, others, _, rfl, hrun, rfl, rfl⟩ := (Prog.runs_bind _ _ _ _).mp htail
            obtain ⟨clock, rfl, hlooked, rfl⟩ := hrest [] hrun
            rw [List.append_nil]
            refine ⟨clock, hlooked, ?_⟩
            rw [List.filterMap_cons_some]
            rw [due_of, hbundle, Option.bind_some]
            exact if_neg hdue

-- While the clock stands still every bundle is looked at at the same time.
theorem due_loop_at {now : Int} {profiles : List PhoneProfile}
    (run : (due_loop say force min_days (latest_by_bundle profiles)).Runs trace due)
    (hclock : ClockAt now trace) :
    due = (latest_by_bundle profiles).filterMap (due_of (fun _ => now) force min_days) := by
  obtain ⟨clock, hlooked, rfl⟩ := due_loop_runs run (latest_kept profiles).nodup
  refine List.filterMap_congr fun p hp => due_of_congr fun bundle hbundle hdate => ?_
  exact hclock _ (hlooked p hp bundle hbundle hdate)

theorem mem_due_iff {bundle : Str} {profiles : List PhoneProfile} :
    bundle ∈ ((latest_by_bundle profiles).filterMap (due_of clock force min_days)).map Prod.fst ↔
      Due clock force min_days profiles bundle := by
  have hdue (p : PhoneProfile) (hp : p.bundle_id = some bundle) :
      bundle ∈ (due_of clock force min_days p).map Prod.fst ↔
        force = true ∨ days_at (clock bundle) p ≤ min_days := by
    rw [due_of, hp, Option.bind_some]
    split
    case isTrue hlate => simp [hlate.1, hlate.2]
    case isFalse hdue => cases force <;> simp_all
  constructor
  · intro h
    obtain ⟨⟨bundle', days⟩, hmem, rfl⟩ := List.mem_map.mp h
    obtain ⟨p, hp, hof⟩ := List.mem_filterMap.mp hmem
    have hbundle : p.bundle_id = some bundle' := by
      unfold due_of at hof
      obtain ⟨other, hother, hif⟩ := Option.bind_eq_some_iff.mp hof
      split at hif
      · cases hif
      · cases hif
        exact hother
    exact ⟨p, (latest_kept profiles).leads p hp bundle' hbundle, (hdue p hbundle).mp (by simp [hof])⟩
  · rintro ⟨p, hlatest, hwhen⟩
    obtain ⟨hp, hbundle⟩ := (latest_kept profiles).mem_iff.mpr hlatest
    obtain ⟨⟨bundle', days⟩, hof, rfl⟩ := Option.mem_map.mp ((hdue p hbundle).mpr hwhen)
    exact List.mem_map.mpr ⟨_, List.mem_filterMap.mpr ⟨p, hp, hof⟩, rfl⟩

-- The bundles due are in the order of their profiles.
theorem due_sublist (clock : Str → Int) (force : Bool) (min_days : Int) (latest : List PhoneProfile) :
    List.Sublist ((latest.filterMap (due_of clock force min_days)).map Prod.fst)
      (latest.filterMap (·.bundle_id)) := by
  induction latest with
  | nil => exact List.Sublist.refl _
  | cons p latest ih =>
      cases hbundle : p.bundle_id with
      | none =>
          rw [List.filterMap_cons_none hbundle, List.filterMap_cons_none (by simp [due_of, hbundle])]
          exact ih
      | some bundle =>
          rw [List.filterMap_cons_some hbundle]
          by_cases hlate : force = false ∧ min_days < days_at (clock bundle) p
          · rw [List.filterMap_cons_none (by simp [due_of, hbundle, hlate])]
            exact ih.cons bundle
          · rw [List.filterMap_cons_some (b := (bundle, days_at (clock bundle) p))]
            · exact ih.cons_cons bundle
            · rw [due_of, hbundle, Option.bind_some]
              exact if_neg hlate

theorem due_nodup (clock : Str → Int) (force : Bool) (min_days : Int) (profiles : List PhoneProfile) :
    (((latest_by_bundle profiles).filterMap (due_of clock force min_days)).map Prod.fst).Nodup :=
  (latest_kept profiles).nodup.sublist (due_sublist clock force min_days _)

end Loop

end AltKeeper
