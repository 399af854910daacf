import AltKeeper.AltServer.Session

-- What a reply says of the phone: a success is a success, but for the profiles whose removal
-- failed.
namespace AltKeeper.AltServer

variable {ext : Ext} {ctx : Ctx} {req : Value} {trace : Prog.Trace Resp}

def IsError (reply : Value) : Prop := (reply.get "identifier").as_str = some "ErrorResponse".toList

instance (reply : Value) : Decidable (IsError reply) := inferInstanceAs (Decidable (_ = _))

theorem error_is_error (code : Int64) : IsError (error code) := rfl

-- What the request asks of the phone was done, as the phone's answers tell.
structure Carried (ext : Ext) (req : Value) (trace : Prog.Trace Resp) : Prop where
  installed : identifier req = "InstallProvisioningProfilesRequest".toList →
    ∃ blobs, decode_profiles req = some blobs ∧ ∀ blob ∈ blobs, ⟨.install blob, .ok ()⟩ ∈ trace
  removed : identifier req = "RemoveProvisioningProfilesRequest".toList →
    wanted_bundles ext req ≠ [] → ∃ raw, ⟨.copy_all, .ok raw⟩ ∈ trace ∧
      ∀ p, Wanted ext (wanted_bundles ext req) raw p → ⟨.remove p.uuid, .ok ()⟩ ∈ trace
  uninstalled : identifier req = "RemoveAppRequest".toList →
    ∃ bundle, (req.get "bundleIdentifier").as_str = some bundle ∧
      ⟨.uninstall bundle, .ok ()⟩ ∈ trace
  app_installed : identifier req = "PrepareAppRequest".toList →
    ∃ ipa pcts, ⟨.read_exact (content_size req).toNat IPA_TIMEOUT, .bytes ipa⟩ ∈ trace ∧
      ⟨.begin_install ipa.1, pcts⟩ ∈ trace ∧ ⟨.end_install, .ok ()⟩ ∈ trace

-- Every removal that failed was made good in the same request.
def RemovalsSucceed (trace : Prog.Trace Resp) : Prop :=
  ∀ uuid e, ⟨.remove uuid, .error e⟩ ∈ trace → ⟨.remove uuid, .ok ()⟩ ∈ trace

def NoRemovals (trace : Prog.Trace Resp) : Prop := ∀ e ∈ trace, e.1.removes = false

theorem NoRemovals.succeed (h : NoRemovals trace) : RemovalsSucceed trace := by
  intro uuid e hmem
  cases h _ hmem

section Requests

variable {reply : Value}

theorem replied_ok {identifier : String} {result : Option (Except Int64 Unit)}
    (h : some reply = result.map (replied identifier)) (hok : ¬ IsError reply) :
    result = some (.ok ()) := by
  obtain ⟨ended, rfl, rfl⟩ := Option.map_eq_some_iff.mp h.symm
  cases ended with
  | ok _ => rfl
  | error code => exact absurd (error_is_error code) hok

theorem install_profiles_carried (h : (install_profiles ext ctx req).Runs trace (some reply))
    (hok : ¬ IsError reply) :
    ∃ blobs, decode_profiles req = some blobs ∧ ∀ blob ∈ blobs, ⟨.install blob, .ok ()⟩ ∈ trace := by
  rcases install_profiles_replies h with ⟨-, ⟨⟩⟩ | ⟨blobs, result, hdecode, hfirst, hreply⟩
  · exact absurd (error_is_error _) hok
  · obtain rfl := replied_ok hreply hok
    refine ⟨blobs, hdecode, fun blob hblob => ?_⟩
    unfold install_all at hfirst
    split at hfirst
    case isTrue hnone =>
      rw [hnone] at hblob
      cases hblob
    case isFalse =>
      rcases with_phone_runs hfirst with hrefused | ⟨before, events, after, rfl, hrun, -⟩
      · obtain ⟨code, hcode⟩ := hrefused.result
        cases hcode
      · have hmem := install_blobs_ok hrun blob hblob
        simp [hmem]

-- How a removal request can end.
inductive Removal (ext : Ext) (req : Value) : Prog.Trace Resp → Value → Prop
  | nothing {trace : Prog.Trace Resp} {reply : Value} (quiet : NoRemovals trace)
      (empty : wanted_bundles ext req = []) : Removal ext req trace reply
  | failed {trace : Prog.Trace Resp} {code : Int64} (quiet : NoRemovals trace) :
      Removal ext req trace (error code)
  | tried {trace : Prog.Trace Resp} {reply : Value} {raw : List Octets}
      (success : ¬ IsError reply) (seen : ⟨.copy_all, .ok raw⟩ ∈ trace)
      (once : ∀ raw', ⟨.copy_all, .ok raw'⟩ ∈ trace → raw' = raw)
      (only : ∀ uuid r, ⟨.remove uuid, r⟩ ∈ trace →
        ∃ p, Wanted ext (wanted_bundles ext req) raw p ∧ p.uuid = uuid)
      (all : ∀ p, Wanted ext (wanted_bundles ext req) raw p → ∃ r, ⟨.remove p.uuid, r⟩ ∈ trace) :
      Removal ext req trace reply

theorem NoRemovals.of_around (h : ∀ e ∈ trace, e.1.around = true) : NoRemovals trace :=
  fun e he => Cmd.removes_of_around (h e he)

theorem remove_profiles_runs (h : (remove_profiles ext ctx req).Runs trace (some reply)) :
    Removal ext req trace reply := by
  obtain ⟨result, hfirst, hreply⟩ := remove_profiles_replies h
  unfold remove_all at hfirst
  split at hfirst
  case isTrue hnone =>
    obtain ⟨rfl, -⟩ := hfirst
    exact .nothing (List.forall_mem_nil _) hnone
  case isFalse hsome =>
    rcases with_phone_runs hfirst with hrefused | ⟨before, events, after, rfl, hrun, haround, -⟩
    · obtain ⟨code, rfl⟩ := hrefused.result
      cases hreply
      exact .failed (.of_around hrefused.around)
    · have hquiet := NoRemovals.of_around haround
      obtain ⟨r, rest, rfl, hrest⟩ := (Prog.runs_perform_bind _ _ _ _).mp hrun
      cases r with
      | error e =>
          obtain ⟨rfl, rfl⟩ := hrest
          cases hreply
          apply Removal.failed
          intro e' he'
          simp only [List.append_assoc, List.mem_append, List.mem_singleton] at he'
          rcases he' with he' | rfl | he'
          · exact hquiet e' (List.mem_append_left _ he')
          · rfl
          · exact hquiet e' (List.mem_append_right _ he')
      | ok raw =>
          rcases remove_matching_result hrest with ⟨rfl, -⟩ | ⟨rfl, -⟩
          · cases hreply
          · cases hreply
            have huses : (remove_matching ext (wanted_bundles ext req) raw).Uses (·.removes = true) :=
              remove_matching_uses _ raw fun _ => rfl
            have hremoves := huses.mem hrest
            have hseen : ⟨.copy_all, .ok raw⟩ ∈ before ++ ⟨.copy_all, .ok raw⟩ :: rest ++ after := by
              simp
            refine .tried nofun hseen ?_ ?_ ?_
            · intro raw' hmem
              simp only [List.append_assoc, List.mem_append, List.mem_cons, List.cons_append] at hmem
              rcases hmem with hmem | hmem | hmem | hmem
              · exact nomatch haround _ (List.mem_append_left _ hmem)
              · cases hmem
                rfl
              · exact nomatch hremoves _ hmem
              · exact nomatch haround _ (List.mem_append_right _ hmem)
            · intro uuid r hmem
              simp only [List.append_assoc, List.mem_append, List.mem_cons, List.cons_append] at hmem
              rcases hmem with hmem | hmem | hmem | hmem
              · exact nomatch hquiet _ (List.mem_append_left _ hmem)
              · cases hmem
              · exact remove_matching_only hrest hmem
              · exact nomatch hquiet _ (List.mem_append_right _ hmem)
            · intro p hp
              obtain ⟨r, hmem⟩ := remove_matching_all hrest hp
              exact ⟨r, by simp [hmem]⟩

theorem remove_app_carried (h : (remove_app ext ctx req).Runs trace (some reply))
    (hok : ¬ IsError reply) :
    ∃ bundle, (req.get "bundleIdentifier").as_str = some bundle ∧
      ⟨.uninstall bundle, .ok ()⟩ ∈ trace := by
  rcases remove_app_replies h with ⟨⟨⟩⟩ | ⟨bundle, result, hbundle, hfirst, hreply⟩
  · exact absurd (error_is_error _) hok
  · obtain rfl := replied_ok hreply hok
    refine ⟨bundle, hbundle, ?_⟩
    rcases with_phone_runs hfirst with hrefused | ⟨before, events, after, rfl, hrun, -⟩
    · obtain ⟨code, hcode⟩ := hrefused.result
      cases hcode
    · rcases uninstall_runs hrun with ⟨code, hcode⟩ | ⟨-, hmem⟩
      · cases hcode
      · simp [hmem]

theorem receive_carried (h : (receive_and_install ext ctx req).Runs trace (some (.ok ()))) :
    ∃ ipa pcts, ⟨.read_exact (content_size req).toNat IPA_TIMEOUT, .bytes ipa⟩ ∈ trace ∧
      ⟨.begin_install ipa.1, pcts⟩ ∈ trace ∧ ⟨.end_install, .ok ()⟩ ∈ trace := by
  cases receive_and_install_runs h with
  | @whole ipa next events frame _ positive bounded read run =>
      rcases with_phone_runs run with hrefused | ⟨before, events, after, rfl, hrun, -⟩
      · obtain ⟨code, hcode⟩ := hrefused.result
        cases hcode
      · cases install_app_runs hrun with
        | @mk pcts reports r _ writes sent outcome =>
            cases r with
            | error e =>
                obtain ⟨code, hcode⟩ := outcome
                cases hcode
            | ok _ => exact ⟨ipa, pcts, by simp, by simp, by simp⟩

end Requests

section Asked

theorem Carried.of_anisette (asked : identifier req = "AnisetteDataRequest".toList) :
    Carried ext req trace := by
  refine ⟨?_, ?_, ?_, ?_⟩
  all_goals exact fun hid => (asked_once asked hid (by decide)).elim

theorem Carried.of_install (asked : identifier req = "InstallProvisioningProfilesRequest".toList)
    (h : ∃ blobs, decode_profiles req = some blobs ∧ ∀ blob ∈ blobs, ⟨.install blob, .ok ()⟩ ∈ trace) :
    Carried ext req trace := by
  refine ⟨fun _ => h, ?_, ?_, ?_⟩
  all_goals exact fun hid => (asked_once asked hid (by decide)).elim

theorem Carried.of_remove (asked : identifier req = "RemoveProvisioningProfilesRequest".toList)
    (h : wanted_bundles ext req ≠ [] → ∃ raw, ⟨.copy_all, .ok raw⟩ ∈ trace ∧
      ∀ p, Wanted ext (wanted_bundles ext req) raw p → ⟨.remove p.uuid, .ok ()⟩ ∈ trace) :
    Carried ext req trace := by
  refine ⟨?_, fun _ => h, ?_, ?_⟩
  all_goals exact fun hid => (asked_once asked hid (by decide)).elim

theorem Carried.of_remove_app (asked : identifier req = "RemoveAppRequest".toList)
    (h : ∃ bundle, (req.get "bundleIdentifier").as_str = some bundle ∧
      ⟨.uninstall bundle, .ok ()⟩ ∈ trace) : Carried ext req trace := by
  refine ⟨?_, ?_, fun _ => h, ?_⟩
  all_goals exact fun hid => (asked_once asked hid (by decide)).elim

theorem Carried.of_prepare (asked : identifier req = "PrepareAppRequest".toList)
    (h : ∃ ipa pcts, ⟨.read_exact (content_size req).toNat IPA_TIMEOUT, .bytes ipa⟩ ∈ trace ∧
      ⟨.begin_install ipa, pcts⟩ ∈ trace ∧ ⟨.end_install, .ok ()⟩ ∈ trace) :
    Carried ext req trace := by
  refine ⟨?_, ?_, ?_, fun _ => h⟩
  all_goals exact fun hid => (asked_once asked hid (by decide)).elim

end Asked

section Dispatch

variable {reply : Value}

-- A reply to anything but a removal is true to the phone.
theorem dispatch_carried (h : (dispatch ext ctx req).Runs trace (some reply))
    (hid : identifier req ≠ "RemoveProvisioningProfilesRequest".toList) (hok : ¬ IsError reply) :
    Carried ext req trace := by
  generalize hreply : some reply = answer at h
  cases dispatch_runs h with
  | anisette asked run => exact .of_anisette asked
  | install asked run =>
      subst hreply
      exact .of_install asked (install_profiles_carried run hok)
  | remove asked run => exact absurd asked hid
  | remove_app asked run =>
      subst hreply
      exact .of_remove_app asked (remove_app_carried run hok)
  | @prepare _ result asked run =>
      rcases result with _ | code | _
      · cases hreply
      · obtain rfl := Option.some.inj hreply
        exact absurd (error_is_error _) hok
      · exact .of_prepare asked (receive_carried run)
  | refused asked =>
      obtain rfl := Option.some.inj hreply
      exact absurd (error_is_error _) hok

theorem dispatch_quiet {reply : Option Value} (h : (dispatch ext ctx req).Runs trace reply)
    (hid : identifier req ≠ "RemoveProvisioningProfilesRequest".toList) : NoRemovals trace := by
  cases dispatch_runs h with
  | anisette asked run =>
      have huses : anisette.Uses (·.removes = false) :=
        anisette_uses rfl rfl rfl (fun _ => rfl) rfl
      exact huses.mem run
  | install asked run =>
      have huses : (install_profiles ext ctx req).Uses (·.removes = false) :=
        install_profiles_uses (fun _ => Cmd.removes_of_around) fun _ => rfl
      exact huses.mem run
  | remove asked run => exact absurd asked hid
  | remove_app asked run =>
      have huses : (remove_app ext ctx req).Uses (·.removes = false) :=
        remove_app_uses (fun _ => Cmd.removes_of_around) rfl fun _ => rfl
      exact huses.mem run
  | prepare asked run =>
      have huses : (receive_and_install ext ctx req).Uses (·.removes = false) :=
        receive_and_install_uses (fun _ => Cmd.removes_of_around) (fun _ _ => rfl) (fun _ => rfl)
          (fun _ => rfl) rfl
      exact huses.mem run
  | refused asked => exact List.forall_mem_nil _

theorem dispatch_remove {reply : Option Value} (h : (dispatch ext ctx req).Runs trace reply)
    (hid : identifier req = "RemoveProvisioningProfilesRequest".toList) :
    (remove_profiles ext ctx req).Runs trace reply := by
  unfold identifier at hid
  dsimp only [dispatch] at h
  rwa [hid, if_neg (by decide), if_neg (by decide), if_pos rfl] at h

theorem removal_carried_iff (asked : identifier req = "RemoveProvisioningProfilesRequest".toList)
    (removal : Removal ext req trace reply) :
    (¬ IsError reply → Carried ext req trace) ↔ RemovalsSucceed trace := by
  cases removal with
  | nothing quiet empty =>
      exact iff_of_true (fun _ => .of_remove asked fun hsome => absurd empty hsome) quiet.succeed
  | failed quiet => exact iff_of_true (fun hok => absurd (error_is_error _) hok) quiet.succeed
  | tried success seen once only all =>
      constructor
      · intro hcarried uuid e hfailed
        obtain ⟨p, hwanted, rfl⟩ := only uuid _ hfailed
        have hsome : wanted_bundles ext req ≠ [] := by
          intro hnone
          have hmatch := hwanted.2
          simp [matches_wanted, hnone] at hmatch
        obtain ⟨raw', hraw', hdone⟩ := (hcarried success).removed asked hsome
        rw [once raw' hraw'] at hdone
        exact hdone p hwanted
      · refine fun hsucceed _ => .of_remove asked fun _ => ⟨_, seen, fun p hp => ?_⟩
        obtain ⟨r, hmem⟩ := all p hp
        cases r with
        | error e => exact hsucceed p.uuid e hmem
        | ok _ => exact hmem

-- A failed removal is reported as a success, and it is the only failure that is: a reply is
-- true to the phone exactly when no removal is left that failed.
theorem no_false_success_iff (h : (dispatch ext ctx req).Runs trace (some reply)) :
    (¬ IsError reply → Carried ext req trace) ↔ RemovalsSucceed trace := by
  by_cases hid : identifier req = "RemoveProvisioningProfilesRequest".toList
  · exact removal_carried_iff hid (remove_profiles_runs (dispatch_remove h hid))
  · exact iff_of_true (dispatch_carried h hid) (dispatch_quiet h hid).succeed

section Sample

def remove_com_a : Value := sample_request "RemoveProvisioningProfilesRequest"
  [("bundleIdentifiers", .array [.string "COM.A".toList])]

-- A phone with one profile, that removes it or does not.
def removing (r : Except Str Unit) : Unit → (c : Cmd) → Resp c × Unit
  | _, .copy_all => (.ok [sample_profile], ())
  | _, .remove _ => (r, ())
  | _, c => (reached [] c, ())

def removal (r : Except Str Unit) : Prog.Trace Resp × Option Value :=
  (dispatch sample ⟨none⟩ remove_com_a).exec (removing r) ()

-- No profile but this one was seen, and none was removed.
def kept : Prog.Event Resp → Bool
  | ⟨.copy_all, .ok raw⟩ => raw = [sample_profile]
  | ⟨.remove _, .ok _⟩ => false
  | _ => true

def failed_removal : Prog.Event Resp → Bool
  | ⟨.remove _, .error _⟩ => true
  | _ => false

theorem false_success : ∃ trace reply, (dispatch sample ⟨none⟩ remove_com_a).Runs trace (some reply) ∧
    ¬ IsError reply ∧ ¬ Carried sample remove_com_a trace := by
  let r : Except Str Unit := .error "Misagent".toList
  have hrun : (dispatch sample ⟨none⟩ remove_com_a).Runs (removal r).1 (removal r).2 :=
    Prog.runs_exec _ _ _
  have hsuccess : (removal r).2.any (fun v => ¬ IsError v) = true := by decide +kernel
  have hkept : (removal r).1.all kept = true := by decide +kernel
  have hsome : wanted_bundles sample remove_com_a ≠ [] := by decide +kernel
  have hwanted : (sample.parse sample_profile).any
      (·.any (matches_wanted sample (wanted_bundles sample remove_com_a))) = true := by decide +kernel
  obtain ⟨reply, hreply, hid⟩ := (Option.any_eq_true _ _).mp hsuccess
  rw [hreply] at hrun
  refine ⟨_, reply, hrun, of_decide_eq_true hid, fun hcarried => ?_⟩
  obtain ⟨raw, hraw, hdone⟩ := hcarried.removed rfl hsome
  obtain ⟨parsed, hparsed, hany⟩ := (Option.any_eq_true _ _).mp hwanted
  obtain ⟨p, rfl, hmatch⟩ := (Option.any_eq_true _ _).mp hany
  obtain rfl : raw = [sample_profile] := of_decide_eq_true (List.all_eq_true.mp hkept _ hraw)
  have hremoved := hdone p ⟨⟨_, List.mem_singleton_self _, hparsed⟩, hmatch⟩
  exact Bool.false_ne_true (List.all_eq_true.mp hkept _ hremoved)

theorem no_false_success_com_a :
    ∃ trace reply, (dispatch sample ⟨none⟩ remove_com_a).Runs trace (some reply) ∧
      ¬ IsError reply ∧ Carried sample remove_com_a trace := by
  have hrun : (dispatch sample ⟨none⟩ remove_com_a).Runs (removal (.ok ())).1 (removal (.ok ())).2 :=
    Prog.runs_exec _ _ _
  have hsuccess : (removal (.ok ())).2.any (fun v => ¬ IsError v) = true := by decide +kernel
  have hnone : (removal (.ok ())).1.all (fun e => !failed_removal e) = true := by decide +kernel
  obtain ⟨reply, hreply, hid⟩ := (Option.any_eq_true _ _).mp hsuccess
  rw [hreply] at hrun
  have hok : ¬ IsError reply := of_decide_eq_true hid
  refine ⟨_, reply, hrun, hok, (no_false_success_iff hrun).mpr (fun uuid e hfailed => ?_) hok⟩
  exact absurd (List.all_eq_true.mp hnone _ hfailed) Bool.false_ne_true

end Sample

end Dispatch

end AltKeeper.AltServer
