import AltKeeper.AltServer.Session

-- When the parser of the profiles stops a request, and that nothing else does.
namespace AltKeeper.AltServer

variable {ext : Ext} {ctx : Ctx} {req : Value} {events : Prog.Trace Resp}

theorem parse_panics (ext : Ext) (raw : Octets) :
    ext.parse raw = none ↔ Profile.plist_slice raw = .panics := by
  unfold Ext.parse Profile.parse
  cases Profile.plist_slice raw <;> simp

-- The slice of a profile is out of range: of one that the request brings, once the phone is
-- found and refuses none, or of one that the phone gives.
def SlicesBadly (req : Value) (events : Prog.Trace Resp) : Prop :=
  (identifier req = "InstallProvisioningProfilesRequest".toList ∧ FoundPhone events ∧
    ¬ FailedInstall events ∧ ∃ blobs, decode_profiles req = some blobs ∧
      ∃ blob ∈ blobs, Profile.plist_slice blob = .panics) ∨
  (identifier req = "RemoveProvisioningProfilesRequest".toList ∧
    ∃ raw, ⟨.copy_all, .ok raw⟩ ∈ events ∧ ∃ x ∈ raw, Profile.plist_slice x = .panics)

section Around

variable {trace : Prog.Trace Resp}

theorem not_install_of_around (h : ∀ e ∈ trace, e.1.around = true) {blob : Octets}
    {r : Except Str Unit} : ⟨.install blob, r⟩ ∉ trace := by
  intro hmem
  cases h _ hmem

theorem not_copy_of_around (h : ∀ e ∈ trace, e.1.around = true)
    {r : Except Str (List Octets)} : ⟨.copy_all, r⟩ ∉ trace := by
  intro hmem
  cases h _ hmem

end Around

theorem install_profiles_panics {reply : Option Value}
    (h : (install_profiles ext ctx req).Runs events reply) :
    reply = none ↔ FoundPhone events ∧ ¬ FailedInstall events ∧
      ∃ blobs, decode_profiles req = some blobs ∧
        ∃ blob ∈ blobs, Profile.plist_slice blob = .panics := by
  rcases install_profiles_replies h with ⟨hdecode, rfl⟩ | ⟨blobs, result, hdecode, hfirst, rfl⟩
  · simp [hdecode]
  · rw [Option.map_eq_none_iff, hdecode]
    simp only [Option.some.injEq, exists_eq_left', ← parse_panics ext]
    unfold install_all at hfirst
    split at hfirst
    case isTrue hnone =>
      obtain ⟨-, rfl⟩ := hfirst
      simp [hnone]
    case isFalse =>
      rcases with_phone_runs hfirst with hrefused | ⟨before, events, after, rfl, hrun, haround, hfound⟩
      · obtain ⟨code, rfl⟩ := hrefused.result
        simp [hrefused.no_phone]
      · have hfound' : FoundPhone (before ++ events ++ after) := by
          obtain ⟨addr, hmem⟩ := hfound
          exact ⟨addr, by simp [hmem]⟩
        have hfailed : FailedInstall (before ++ events ++ after) ↔ FailedInstall events := by
          have hbefore := fun e he => haround e (List.mem_append_left _ he)
          have hafter := fun e he => haround e (List.mem_append_right _ he)
          simp [FailedInstall, not_install_of_around hbefore, not_install_of_around hafter]
        rw [install_blobs_panics hrun, hfailed, and_iff_right hfound']

theorem remove_profiles_panics {reply : Option Value}
    (h : (remove_profiles ext ctx req).Runs events reply) :
    reply = none ↔ ∃ raw, ⟨.copy_all, .ok raw⟩ ∈ events ∧
      ∃ x ∈ raw, Profile.plist_slice x = .panics := by
  obtain ⟨result, hfirst, rfl⟩ := remove_profiles_replies h
  rw [Option.map_eq_none_iff]
  simp only [← parse_panics ext]
  unfold remove_all at hfirst
  split at hfirst
  case isTrue hnone =>
    obtain ⟨rfl, rfl⟩ := hfirst
    simp
  case isFalse =>
    rcases with_phone_runs hfirst with hrefused | ⟨before, events, after, rfl, hrun, haround, -⟩
    · obtain ⟨code, rfl⟩ := hrefused.result
      simp [not_copy_of_around hrefused.around]
    · have hbefore := fun e he => haround e (List.mem_append_left _ he)
      have hafter := fun e he => haround e (List.mem_append_right _ he)
      obtain ⟨r, rest, rfl, hrest⟩ := (Prog.runs_perform_bind _ _ _ _).mp hrun
      cases r with
      | error e =>
          obtain ⟨rfl, rfl⟩ := hrest
          simp [not_copy_of_around hbefore, not_copy_of_around hafter]
      | ok raw =>
          have huses : (remove_matching ext (wanted_bundles ext req) raw).Uses (·.removes = true) :=
            remove_matching_uses _ raw fun _ => rfl
          have hremoves (raw' : List Octets) : ⟨.copy_all, .ok raw'⟩ ∉ rest :=
            fun hmem => nomatch huses.mem hrest _ hmem
          have hcopied (raw' : List Octets) :
              ⟨.copy_all, .ok raw'⟩ ∈ before ++ ⟨.copy_all, .ok raw⟩ :: rest ++ after ↔ raw' = raw := by
            simp [not_copy_of_around hbefore, not_copy_of_around hafter, hremoves]
          simp only [hcopied, exists_eq_left]
          rcases remove_matching_result hrest with ⟨rfl, hbad⟩ | ⟨rfl, hgood⟩
          · exact iff_of_true rfl hbad
          · simpa using hgood

-- A request is left without a reply exactly when a slice goes wrong.
theorem dispatch_panics {reply : Option Value} (h : (dispatch ext ctx req).Runs events reply) :
    reply = none ↔ SlicesBadly req events := by
  unfold SlicesBadly
  cases dispatch_runs h with
  | anisette asked run => simp [asked]
  | install asked run =>
      rw [install_profiles_panics run]
      simp [asked]
  | remove asked run =>
      rw [remove_profiles_panics run]
      simp [asked]
  | remove_app asked run =>
      refine iff_of_false ?_ (by simp [asked])
      unfold remove_app at run
      split at run
      · rw [← run.2]
        exact Option.some_ne_none _
      · obtain ⟨first, result, last, rfl, hfirst, hlast⟩ := (Prog.runs_bind _ _ _ _).mp run
        rcases with_phone_runs hfirst with hrefused | ⟨before, events, after, rfl, hrun, -⟩
        · obtain ⟨code, rfl⟩ := hrefused.result
          rw [← hlast.2]
          exact Option.some_ne_none _
        · rcases uninstall_runs hrun with ⟨code, rfl⟩ | ⟨rfl, -⟩
          all_goals
            rw [← hlast.2]
            exact Option.some_ne_none _
  | @prepare _ result asked run =>
      refine iff_of_false ?_ (by simp [asked])
      suffices h : result ≠ none by simpa using h
      cases receive_and_install_runs run with
      | whole positive bounded read run =>
          rcases with_phone_runs run with hrefused | ⟨before, events, after, rfl, hrun, -⟩
          · obtain ⟨code, rfl⟩ := hrefused.result
            exact Option.some_ne_none _
          · cases install_app_runs hrun with
            | mk writes sent outcome =>
                split at outcome
                · rw [outcome]
                  exact Option.some_ne_none _
                · obtain ⟨code, rfl⟩ := outcome
                  exact Option.some_ne_none _
      | _ => exact Option.some_ne_none _
  | refused asked =>
      refine iff_of_false (Option.some_ne_none _) ?_
      rcases asked with asked | asked
      · simp [asked]
      · simp only [List.mem_cons, not_or] at asked
        rintro (⟨hid, -⟩ | ⟨hid, -⟩)
        · exact asked.2.1 hid
        · exact asked.2.2.1 hid

end AltKeeper.AltServer
