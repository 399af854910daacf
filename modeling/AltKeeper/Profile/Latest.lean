import AltKeeper.Profile
import AltKeeper.Lib.Greatest
import Mathlib.Order.WithBot

-- Which profiles are the latest of their bundles.
namespace AltKeeper.Profile

-- A date, or none: a missing date comes before every other.
def When : Type := WithBot Int

instance : LinearOrder When := inferInstanceAs (LinearOrder (WithBot Int))

def PhoneProfile.when (p : PhoneProfile) : When := p.expires

-- The profile of the bundle that expires last, the first of them when several do.
def LatestOf (profiles : List PhoneProfile) (bundle : Str) (p : PhoneProfile) : Prop :=
  Greatest.Leads PhoneProfile.bundle_id PhoneProfile.when profiles bundle p

-- The bundles in the order in which each comes first, with a `none` for each profile without one.
def bundles (profiles : List PhoneProfile) : List (Option Str) :=
  Greatest.firsts [] (profiles.map (·.bundle_id))

structure Selects (profiles latest : List PhoneProfile) : Prop where
  one : ∀ bundle, some bundle ∈ profiles.map (·.bundle_id) →
    ∃ p, latest.filter (·.bundle_id = some bundle) = [p] ∧ LatestOf profiles bundle p
  without : latest.filter (·.bundle_id = none) = profiles.filter (·.bundle_id = none)
  subset : ∀ p ∈ latest, p ∈ profiles
  order : latest.map (·.bundle_id) = bundles profiles
  any_order : ∀ others, others.Perm profiles → ∀ p ∈ latest, ∀ q ∈ latest_by_bundle others,
    p.bundle_id.isSome → p.bundle_id = q.bundle_id → p.expires = q.expires

section Scan

variable {profiles : List PhoneProfile}

theorem is_later_iff (p q : PhoneProfile) :
    is_later p.expires q.expires = true ↔ q.when < p.when := by
  unfold PhoneProfile.when
  cases p.expires with
  | none => exact iff_of_false Bool.false_ne_true (not_lt_bot (α := WithBot Int))
  | some x =>
      cases q.expires with
      | none => exact iff_of_true rfl (WithBot.bot_lt_coe x)
      | some y => exact decide_eq_true_iff.trans (WithBot.coe_lt_coe (α := Int)).symm

theorem replace_older_eq (p : PhoneProfile) (latest : List PhoneProfile) :
    replace_older p latest =
      Greatest.raise PhoneProfile.bundle_id PhoneProfile.when p latest := by
  induction latest with
  | nil => rfl
  | cons q latest ih => simp only [replace_older, Greatest.raise, ih, is_later_iff]

theorem latest_by_bundle_eq (profiles : List PhoneProfile) :
    latest_by_bundle profiles =
      Greatest.scan PhoneProfile.bundle_id PhoneProfile.when profiles := by
  simp only [latest_by_bundle, Greatest.scan, replace_older_eq]

theorem latest_kept (profiles : List PhoneProfile) :
    Greatest.Kept PhoneProfile.bundle_id PhoneProfile.when profiles (latest_by_bundle profiles) := by
  rw [latest_by_bundle_eq]
  exact Greatest.scan_kept _ _ profiles

end Scan

-- For every list of profiles the latest of each bundle is kept, and whatever has no bundle.
theorem latest_by_bundle_selects (profiles : List PhoneProfile) :
    Selects profiles (latest_by_bundle profiles) where
  one _ h := (latest_kept profiles).one h
  without := (latest_kept profiles).keyless
  subset := (latest_kept profiles).subset
  order := (latest_kept profiles).keys
  any_order others hperm p hp q hq hsome hsame := by
    obtain ⟨bundle, hbundle⟩ := Option.isSome_iff_exists.mp hsome
    have hlatest := (latest_kept profiles).leads p hp bundle hbundle
    have hother := (latest_kept others).leads q hq bundle (hsame.symm.trans hbundle)
    exact hlatest.rank_eq hother hperm.symm

end AltKeeper.Profile
