import AltKeeper.Renew.Steps

-- What a whole renewal does, from the account and the profiles that it reads.
namespace AltKeeper

open Profile (PhoneProfile LatestOf latest_by_bundle latest_kept)

def Cmd.copies : Cmd → Bool
  | .copy_all => true
  | _ => false

-- What the phone gives when its profiles are read for the first time.
def first_copy : Prog.Trace Resp → Option (Except Str (List Octets))
  | [] => none
  | ⟨.copy_all, copied⟩ :: _ => some copied
  | _ :: trace => first_copy trace

-- The account saved has a password and a team, and the profiles on the phone are read.
structure Reading (ext : Ext) (trace : Prog.Trace Resp) (team_id : Str)
    (profiles : List PhoneProfile) : Prop where
  account : ∃ raw acc, trace.head? = some ⟨.read_account, some raw⟩ ∧ ext.account raw = .ok acc ∧
    acc.password ≠ [] ∧ acc.team_id = some team_id
  phone : ∃ blobs, first_copy trace = some (.ok blobs) ∧ Phone.parse_all ext blobs = some profiles

def due_list (clock : Str → Int) (force : Bool) (min_days : Int) (team_id : Str)
    (profiles : List PhoneProfile) : List (Str × Int) :=
  (latest_by_bundle (of_team team_id profiles)).filterMap (due_of clock force min_days)

-- A renewal decides from what it reads, and signs in only when something is due.
inductive Renewal (ext : Ext) (dry_run force : Bool) (min_days : Int) (trace : Prog.Trace Resp) :
    Except Fail Unit → Prop
  | unread {f : Fail} (nothing : steps trace = [])
      (unread : ∀ team_id profiles, ¬ Reading ext trace team_id profiles) :
      Renewal ext dry_run force min_days trace (.error f)
  | nothing_due {team_id : Str} {profiles : List PhoneProfile} {clock : Str → Int}
      (reading : Reading ext trace team_id profiles)
      (looked : Looked clock (latest_by_bundle (of_team team_id profiles)) trace)
      (none_due : due_list clock force min_days team_id profiles = []) (nothing : steps trace = []) :
      Renewal ext dry_run force min_days trace (.ok ())
  | due {team_id : Str} {profiles : List PhoneProfile} {clock : Str → Int}
      {result : Except Fail Unit} (reading : Reading ext trace team_id profiles)
      (looked : Looked clock (latest_by_bundle (of_team team_id profiles)) trace)
      (some_due : due_list clock force min_days team_id profiles ≠ [])
      (renewing : RenewSteps dry_run (due_list clock force min_days team_id profiles)
        (steps trace) result) :
      Renewal ext dry_run force min_days trace result

section Runs

variable {ext : Ext} {trace : Prog.Trace Resp} {team_id : Str} {profiles : List PhoneProfile}

theorem first_copy_append {first : Prog.Trace Resp} (h : ∀ e ∈ first, e.1.copies = false)
    (rest : Prog.Trace Resp) : first_copy (first ++ rest) = first_copy rest := by
  apply Prog.Trace.skip first_copy (·.copies = false) _ h
  intro c r rest hc
  cases c <;> first | rfl | cases hc

theorem first_copy_of_some {first : Prog.Trace Resp} {copied : Except Str (List Octets)}
    (h : first_copy first = some copied) (rest : Prog.Trace Resp) :
    first_copy (first ++ rest) = some copied := by
  induction first with
  | nil => cases h
  | cons e first ih =>
      obtain ⟨c, r⟩ := e
      cases c <;> first | exact ih h | exact h

theorem Looked.mono {clock : Str → Int} {latest : List PhoneProfile} {trace' : Prog.Trace Resp}
    (h : Looked clock latest trace) (hsub : trace ⊆ trace') : Looked clock latest trace' :=
  fun p hp bundle hbundle hdate => hsub (h p hp bundle hbundle hdate)

theorem Reading.unique {team_id' : Str} {profiles' : List PhoneProfile}
    (h : Reading ext trace team_id profiles) (h' : Reading ext trace team_id' profiles') :
    team_id = team_id' ∧ profiles = profiles' := by
  obtain ⟨⟨raw, acc, hhead, hacc, -, hteam⟩, blobs, hcopy, hparse⟩ := h
  obtain ⟨⟨raw', acc', hhead', hacc', -, hteam'⟩, blobs', hcopy', hparse'⟩ := h'
  obtain rfl : raw = raw' := by simpa using hhead.symm.trans hhead'
  obtain rfl : acc = acc' := by simpa using hacc.symm.trans hacc'
  obtain rfl : blobs = blobs' := by simpa using hcopy.symm.trans hcopy'
  exact ⟨Option.some.inj (hteam.symm.trans hteam'), Option.some.inj (hparse.symm.trans hparse')⟩

theorem load_account_runs {r : Except Str Account} (run : (Apple.load_account ext).Runs trace r) :
    ∃ content, trace = [⟨.read_account, content⟩] ∧ ∀ acc, r = .ok acc ↔
      ∃ raw, content = some raw ∧ ext.account raw = .ok acc ∧ acc.password ≠ [] := by
  obtain ⟨content, rest, rfl, hrest⟩ := (Prog.runs_perform_bind _ _ _ _).mp run
  cases content with
  | none =>
      obtain ⟨rfl, rfl⟩ := hrest
      exact ⟨none, rfl, fun acc => by simp⟩
  | some raw =>
      dsimp only at hrest
      cases hacc : ext.account raw with
      | error e =>
          rw [hacc] at hrest
          obtain ⟨rfl, rfl⟩ := hrest
          exact ⟨some raw, rfl, fun acc => by simp [hacc]⟩
      | ok acc' =>
          rw [hacc] at hrest
          dsimp only at hrest
          split at hrest
          case isTrue hempty =>
            obtain ⟨rfl, rfl⟩ := hrest
            refine ⟨some raw, rfl, fun acc => iff_of_false nofun ?_⟩
            rintro ⟨_, ⟨⟩, heq, hne⟩
            cases hacc.symm.trans heq
            exact hne hempty
          case isFalse hne =>
            obtain ⟨rfl, rfl⟩ := hrest
            refine ⟨some raw, rfl, fun acc => ⟨?_, ?_⟩⟩
            · rintro ⟨⟩
              exact ⟨raw, rfl, hacc, hne⟩
            · rintro ⟨_, ⟨⟩, heq, -⟩
              exact hacc.symm.trans heq

theorem phone_profiles_runs {r : Except Fail (List PhoneProfile)}
    (run : (Phone.phone_profiles ext).Runs trace r) :
    ∃ copied, trace = [⟨.copy_all, copied⟩] ∧ ∀ profiles, r = .ok profiles ↔
      ∃ blobs, copied = .ok blobs ∧ Phone.parse_all ext blobs = some profiles := by
  obtain ⟨copied, rest, rfl, hrest⟩ := (Prog.runs_perform_bind _ _ _ _).mp run
  cases copied with
  | error e =>
      obtain ⟨rfl, rfl⟩ := hrest
      exact ⟨_, rfl, fun profiles => by simp⟩
  | ok blobs =>
      dsimp only at hrest
      cases hparse : Phone.parse_all ext blobs with
      | none =>
          rw [hparse] at hrest
          obtain ⟨rfl, rfl⟩ := hrest
          exact ⟨_, rfl, fun profiles => by simp [hparse]⟩
      | some found =>
          rw [hparse] at hrest
          obtain ⟨rfl, rfl⟩ := hrest
          exact ⟨_, rfl, fun profiles => by simp [hparse]⟩

variable {say : Str → Act Unit} (hsay : ∀ line, (say line).Uses (·.reports = true))
  {dry_run force : Bool} {min_days : Int}

include hsay

theorem say_copies (line : Str) : (say line).Uses (·.copies = false) :=
  (hsay line).mono fun c h => by cases c <;> first | rfl | cases h

-- The part of the renewal that has the link open, after what was read before.
theorem renew_on_phone_runs {acc : Account} {result : Except Fail Unit}
    (run : (renew_on_phone ext say acc team_id dry_run force min_days).Runs trace result) :
    ∃ copied, first_copy trace = some copied ∧
      ((steps trace = [] ∧ (∀ blobs, copied = .ok blobs → Phone.parse_all ext blobs = none) ∧
          ∃ f, result = .error f) ∨
        ∃ blobs profiles clock, copied = .ok blobs ∧ Phone.parse_all ext blobs = some profiles ∧
          Looked clock (latest_by_bundle (of_team team_id profiles)) trace ∧
          (due_list clock force min_days team_id profiles = [] ∧ steps trace = [] ∧ result = .ok () ∨
            due_list clock force min_days team_id profiles ≠ [] ∧
              RenewSteps dry_run (due_list clock force min_days team_id profiles) (steps trace) result)) := by
  obtain ⟨copying, read, rest, rfl, hcopying, hrest⟩ := (Prog.runs_bind _ _ _ _).mp run
  obtain ⟨copied, rfl, hread⟩ := phone_profiles_runs hcopying
  refine ⟨copied, rfl, ?_⟩
  cases read with
  | error e =>
      obtain ⟨rfl, rfl⟩ := hrest
      refine .inl ⟨rfl, fun blobs hblobs => ?_, e, rfl⟩
      cases hparse : Phone.parse_all ext blobs with
      | none => rfl
      | some profiles => cases (hread profiles).mpr ⟨blobs, hblobs, hparse⟩
  | ok profiles =>
      obtain ⟨blobs, hblobs, hparse⟩ := (hread profiles).mp rfl
      obtain ⟨said, _, later, rfl, hsaid, hlater⟩ := (Prog.runs_bind _ _ _ _).mp hrest
      have hsteps (later : Prog.Trace Resp) :
          steps ([⟨.copy_all, copied⟩] ++ (said ++ later)) = steps later := by
        rw [steps_append, steps_append, (say_calm hsay _).steps hsaid]
        rfl
      right
      rw [hsteps]
      split at hlater
      case isTrue hmine =>
        obtain ⟨rfl, rfl⟩ := hlater
        refine ⟨blobs, profiles, fun _ => 0, hblobs, hparse, ?_, .inl ⟨?_, rfl, rfl⟩⟩
        · rw [hmine]
          exact fun p hp => absurd hp List.not_mem_nil
        · rw [due_list, hmine]
          rfl
      case isFalse hmine =>
        obtain ⟨looking, due, last, rfl, hlooking, hlast⟩ := (Prog.runs_bind _ _ _ _).mp hlater
        obtain ⟨clock, hlooked, rfl⟩ := due_loop_runs hlooking (latest_kept _).nodup
        refine ⟨blobs, profiles, clock, hblobs, hparse, fun p hp bundle hbundle hdate => ?_, ?_⟩
        · have hmem := hlooked p hp bundle hbundle hdate
          simp [hmem]
        rw [steps_append, (due_loop_calm hsay force min_days _).steps hlooking, List.nil_append]
        split at hlast
        case isTrue hnone =>
          obtain ⟨told, _, finished, rfl, htold, rfl, rfl⟩ := (Prog.runs_bind _ _ _ _).mp hlast
          left
          rw [steps_append, (say_calm hsay _).steps htold]
          exact ⟨hnone, rfl, rfl⟩
        case isFalse hsome => exact .inr ⟨hsome, renew_due_steps hsay hlast⟩

theorem cmd_renew_runs {addr : Option SocketAddr} {result : Except Fail Unit}
    (run : (cmd_renew ext say addr dry_run force min_days).Runs trace result) :
    Renewal ext dry_run force min_days trace result := by
  obtain ⟨loading, loaded, rest, rfl, hloading, hrest⟩ := (Prog.runs_bind _ _ _ _).mp run
  obtain ⟨content, rfl, hloaded⟩ := load_account_runs hloading
  cases loaded with
  | error e =>
      obtain ⟨rfl, rfl⟩ := hrest
      refine .unread rfl fun team_id profiles hreading => ?_
      obtain ⟨raw, acc, hhead, hacc, hpassword, -⟩ := hreading.account
      have hcontent : content = some raw := by simpa using hhead
      cases (hloaded acc).mpr ⟨raw, hcontent, hacc, hpassword⟩
  | ok acc =>
      obtain ⟨raw, rfl, hacc, hpassword⟩ := (hloaded acc).mp rfl
      have hteam {team_id : Str} {profiles : List PhoneProfile} {later : Prog.Trace Resp}
          (h : Reading ext ([⟨.read_account, some raw⟩] ++ later) team_id profiles) :
          acc.team_id = some team_id := by
        obtain ⟨raw', acc', hhead, hacc', -, hteam⟩ := h.account
        obtain rfl : raw = raw' := by simpa using hhead
        obtain rfl : acc = acc' := by simpa using hacc.symm.trans hacc'
        exact hteam
      cases hid : acc.team_id with
      | none =>
          dsimp only at hrest
          rw [hid] at hrest
          obtain ⟨rfl, rfl⟩ := hrest
          exact .unread rfl fun team_id profiles hreading => by simpa [hid] using hteam hreading
      | some team_id =>
          dsimp only at hrest
          rw [hid] at hrest
          obtain ⟨said, _, opening, rfl, hsaid, hopening⟩ := (Prog.runs_bind _ _ _ _).mp hrest
          obtain ⟨searching, opened, later, rfl, hsearching, hlater⟩ :=
            (Prog.runs_bind _ _ _ _).mp hopening
          have hcalm : Calm (open_phone ext say addr) :=
            open_phone_uses (P := fun c => c.renewing = false) (say_calm hsay) calm_of_finds addr
          have huses : (open_phone ext say addr).Uses (·.copies = false) :=
            open_phone_uses (P := fun c => c.copies = false) (say_copies hsay)
              (fun c h => by cases c <;> first | rfl | cases h) addr
          have hsteps (later : Prog.Trace Resp) :
              steps ([⟨.read_account, some raw⟩] ++ (said ++ (searching ++ later))) = steps later := by
            rw [steps_append, steps_append, steps_append, (say_calm hsay _).steps hsaid,
              hcalm.steps hsearching]
            rfl
          have hcopy (later : Prog.Trace Resp) :
              first_copy ([⟨.read_account, some raw⟩] ++ (said ++ (searching ++ later))) =
                first_copy later := by
            rw [← first_copy_append (huses.mem hsearching) later,
              ← first_copy_append ((say_copies hsay _).mem hsaid) (searching ++ later)]
            rfl
          cases opened with
          | error e =>
              obtain ⟨rfl, rfl⟩ := hlater
              refine .unread (hsteps []) fun team_id profiles hreading => ?_
              obtain ⟨blobs, hblobs, -⟩ := hreading.phone
              rw [hcopy] at hblobs
              cases hblobs
          | ok _ =>
              obtain ⟨renewing, ending, dropping, rfl, hrenewing, hdropping⟩ :=
                (Prog.runs_bind _ _ _ _).mp hlater
              obtain ⟨_, _, rfl, rfl, rfl⟩ := (Prog.runs_perform_bind _ _ _ _).mp hdropping
              obtain ⟨copied, hcopied, houtcome⟩ := renew_on_phone_runs hsay hrenewing
              have hfirst := first_copy_of_some hcopied [⟨.drop_link, ()⟩]
              rw [← hcopy] at hfirst
              have hwhole := hsteps (renewing ++ [⟨.drop_link, ()⟩])
              rw [steps_append renewing, show steps [⟨.drop_link, ()⟩] = [] from rfl,
                List.append_nil] at hwhole
              rcases houtcome with ⟨hnothing, hbad, f, rfl⟩ |
                ⟨blobs, profiles, clock, rfl, hparse, hlooked, houtcome⟩
              · refine .unread (hwhole.trans hnothing) fun team_id profiles hreading => ?_
                obtain ⟨blobs, hblobs, hparse⟩ := hreading.phone
                rw [hfirst] at hblobs
                cases (hbad blobs (Option.some.inj hblobs)).symm.trans hparse
              · have hreading : Reading ext ([⟨.read_account, some raw⟩] ++ (said ++ (searching ++
                    (renewing ++ [⟨.drop_link, ()⟩])))) team_id profiles :=
                  ⟨⟨raw, acc, rfl, hacc, hpassword, hid⟩, blobs, hfirst, hparse⟩
                have hsub : renewing ⊆ [⟨.read_account, some raw⟩] ++ (said ++ (searching ++
                    (renewing ++ [⟨.drop_link, ()⟩]))) := by
                  intro e he
                  simp [he]
                rcases houtcome with ⟨hnone, hnothing, rfl⟩ | ⟨hsome, hrenewed⟩
                · exact .nothing_due hreading (hlooked.mono hsub) hnone (hwhole.trans hnothing)
                · refine .due hreading (hlooked.mono hsub) hsome ?_
                  rw [hwhole]
                  exact hrenewed

end Runs

section Exactly

def Cmd.renews : Cmd → Bool
  | .download_profile _ _ => true
  | .install _ => true
  | _ => false

-- The downloads and installations of a run.
def renewals (trace : Prog.Trace Resp) : Prog.Trace Resp := trace.filter (·.1.renews)

-- The App IDs that Apple lists, none before it is asked.
def listed : Prog.Trace Resp → List AppId
  | [] => []
  | ⟨.list_app_ids _, .ok ids⟩ :: _ => ids
  | _ :: trace => listed trace

-- The App IDs of the bundles due, each once, in the order of the bundles on the phone.
structure DueApps (mine : List PhoneProfile) (due : Str → Prop) (ids apps : List AppId) : Prop where
  once : (apps.map (·.identifier)).Nodup
  iff_due : ∀ bundle, bundle ∈ apps.map (·.identifier) ↔
    due bundle ∧ bundle ∈ ids.map (·.identifier)
  listed : ∀ app ∈ apps, app ∈ ids
  in_order : List.Sublist (apps.map (·.identifier)) ((Profile.bundles mine).filterMap id)

structure ExactlyDue (mine : List PhoneProfile) (due : Str → Prop) (dry_run : Bool)
    (trace : Prog.Trace Resp) (result : Except Fail Unit) : Prop where
  sign_in : (∃ r, ⟨.prepare_state, r⟩ ∈ trace) ↔ ∃ bundle, due bundle
  log_in : (∃ apple_id password asked, ⟨.begin_login apple_id password, asked⟩ ∈ trace) ↔
    ⟨.prepare_state, .ok ()⟩ ∈ trace
  dry : dry_run = true → renewals trace = []
  renewed : ∃ apps done, DueApps mine due (listed trace) apps ∧
    Renewed apps done (renewals trace) ∧ done <+: apps ∧
    (result = .ok () → dry_run = false → done = apps)

variable {ext : Ext} {trace : Prog.Trace Resp} {dry_run : Bool} {due : List (Str × Int)}

theorem mem_steps {e : Prog.Event Resp} (h : e.1.renewing = true) : e ∈ steps trace ↔ e ∈ trace := by
  rw [steps, List.mem_filter, and_iff_left h]

theorem renewals_steps (trace : Prog.Trace Resp) : renewals (steps trace) = renewals trace := by
  rw [renewals, steps, List.filter_filter]
  refine List.filter_congr fun e _ => ?_
  obtain ⟨c, r⟩ := e
  cases c <;> rfl

theorem listed_steps (trace : Prog.Trace Resp) : listed (steps trace) = listed trace := by
  induction trace with
  | nil => rfl
  | cons e trace ih =>
      obtain ⟨c, r⟩ := e
      cases c with
      | list_app_ids team =>
          rw [steps, List.filter_cons_of_pos rfl]
          cases r with
          | error e => exact ih
          | ok ids => rfl
      | _ => exact ih

theorem Renewed.done_begins {apps done : List AppId} {events : Prog.Trace Resp}
    (h : Renewed apps done events) : done <+: apps := by
  induction h with
  | stopped => exact List.nil_prefix
  | not_downloaded => exact List.nil_prefix
  | refused => exact List.nil_prefix
  | installed rest ih => exact List.cons_prefix_cons.mpr ⟨rfl, ih⟩

theorem Renewed.renewals {apps done : List AppId} {events : Prog.Trace Resp}
    (h : Renewed apps done events) : renewals events = events := by
  induction h with
  | stopped => rfl
  | not_downloaded => rfl
  | refused => rfl
  | installed rest ih => exact congrArg (_ :: _ :: ·) ih

theorem found_identifier {ids : List AppId} {bundle : Str} {app : AppId}
    (h : ids.find? (·.identifier = bundle) = some app) : app.identifier = bundle := by
  simpa using List.find?_some h

theorem jobs_sublist (ids : List AppId) (due : List (Str × Int)) :
    List.Sublist ((jobs ids due).map (·.identifier)) (due.map Prod.fst) := by
  induction due with
  | nil => exact List.Sublist.refl _
  | cons d due ih =>
      cases hfind : ids.find? (·.identifier = d.1) with
      | none =>
          rw [jobs_skip hfind, List.map_cons]
          exact ih.cons d.1
      | some app =>
          rw [jobs_cons hfind, List.map_cons, List.map_cons, found_identifier hfind]
          exact ih.cons_cons d.1

theorem mem_jobs {ids : List AppId} {app : AppId} (h : app ∈ jobs ids due) : app ∈ ids := by
  obtain ⟨d, -, hfind⟩ := List.mem_filterMap.mp h
  exact List.mem_of_find?_eq_some hfind

theorem mem_jobs_iff {ids : List AppId} {bundle : Str} :
    bundle ∈ (jobs ids due).map (·.identifier) ↔
      bundle ∈ due.map Prod.fst ∧ bundle ∈ ids.map (·.identifier) := by
  constructor
  · intro h
    refine ⟨(jobs_sublist ids due).subset h, ?_⟩
    obtain ⟨app, happ, rfl⟩ := List.mem_map.mp h
    exact List.mem_map.mpr ⟨app, mem_jobs happ, rfl⟩
  · rintro ⟨hdue, hids⟩
    obtain ⟨d, hd, rfl⟩ := List.mem_map.mp hdue
    obtain ⟨app, happ, hid⟩ := List.mem_map.mp hids
    cases hfind : ids.find? (·.identifier = d.1) with
    | none => exact absurd (by simpa using hid) (List.find?_eq_none.mp hfind app happ)
    | some found =>
        exact List.mem_map.mpr ⟨found, List.mem_filterMap.mpr ⟨d, hd, hfind⟩, found_identifier hfind⟩

variable {clock : Str → Int} {force : Bool} {min_days : Int} {team_id : Str}
  {profiles : List PhoneProfile}

theorem due_apps (ids : List AppId) :
    DueApps (of_team team_id profiles) (Due clock force min_days (of_team team_id profiles)) ids
      (jobs ids (due_list clock force min_days team_id profiles)) where
  once := (due_nodup clock force min_days _).sublist (jobs_sublist ids _)
  iff_due bundle := by rw [mem_jobs_iff, due_list, mem_due_iff]
  listed _ := mem_jobs
  in_order := by
    have horder : (Profile.bundles (of_team team_id profiles)).filterMap id =
        (latest_by_bundle (of_team team_id profiles)).filterMap (·.bundle_id) := by
      rw [Profile.bundles, ← (latest_kept _).keys, List.filterMap_map]
      rfl
    rw [horder]
    exact (jobs_sublist ids _).trans (due_sublist clock force min_days _)

theorem due_list_eq_nil : due_list clock force min_days team_id profiles = [] ↔
    ¬ ∃ bundle, Due clock force min_days (of_team team_id profiles) bundle := by
  constructor
  · rintro hnil ⟨bundle, hdue⟩
    have hmem := mem_due_iff.mpr hdue
    rw [show List.filterMap _ _ = due_list clock force min_days team_id profiles from rfl, hnil] at hmem
    exact absurd hmem List.not_mem_nil
  · intro hnone
    rw [List.eq_nil_iff_forall_not_mem]
    exact fun d hd => hnone ⟨d.1, mem_due_iff.mp (List.mem_map_of_mem hd)⟩

theorem exactly_due_of_steps {result : Except Fail Unit} (h : RenewSteps dry_run
      (due_list clock force min_days team_id profiles) (steps trace) result)
    (hsome : due_list clock force min_days team_id profiles ≠ []) :
    ExactlyDue (of_team team_id profiles) (Due clock force min_days (of_team team_id profiles))
      dry_run trace result := by
  have hdue : ∃ bundle, Due clock force min_days (of_team team_id profiles) bundle := by
    by_contra hnone
    exact hsome (due_list_eq_nil.mpr hnone)
  have hprepared (r : Except Str Unit) :
      ⟨.prepare_state, r⟩ ∈ trace ↔ ⟨.prepare_state, r⟩ ∈ steps trace := (mem_steps rfl).symm
  have hlogged (apple_id password : Str) (asked : List (Option Str)) :
      ⟨.begin_login apple_id password, asked⟩ ∈ trace ↔
        ⟨.begin_login apple_id password, asked⟩ ∈ steps trace := (mem_steps rfl).symm
  have hnone (f : Fail) (P : Prop) : (.error f : Except Fail Unit) = .ok () → P := nofun
  constructor
  case sign_in =>
    refine iff_of_true ?_ hdue
    simp only [hprepared]
    generalize steps trace = events at h
    cases h <;> exact ⟨_, List.mem_cons_self⟩
  case log_in =>
    simp only [hprepared, hlogged]
    generalize steps trace = events at h
    cases h with
    | unprepared => simp
    | no_session => simp
    | no_ids => simp
    | listed dry renewed whole =>
        exact iff_of_true ⟨_, _, _, List.mem_cons_of_mem _ List.mem_cons_self⟩ List.mem_cons_self
  case dry =>
    intro hdry
    rw [← renewals_steps]
    generalize steps trace = events at h
    cases h with
    | unprepared => rfl
    | no_session => rfl
    | no_ids => rfl
    | listed dry renewed whole =>
        rw [dry hdry]
        rfl
  case renewed =>
    rw [← renewals_steps, ← listed_steps]
    generalize steps trace = events at h
    refine ⟨jobs (listed events) (due_list clock force min_days team_id profiles), ?_⟩
    cases h with
    | unprepared => exact ⟨[], due_apps _, .stopped, List.nil_prefix, hnone _ _⟩
    | no_session => exact ⟨[], due_apps _, .stopped, List.nil_prefix, hnone _ _⟩
    | no_ids => exact ⟨[], due_apps _, .stopped, List.nil_prefix, hnone _ _⟩
    | listed dry renewed whole =>
        refine ⟨_, due_apps _, ?_, renewed.done_begins, whole⟩
        rw [← renewed.renewals] at renewed
        exact renewed

-- A renewal signs in exactly when something is due, and renews exactly what is due, in order.
theorem cmd_renew_exactly_due {say : Str → Act Unit}
    (hsay : ∀ line, (say line).Uses (·.reports = true)) {addr : Option SocketAddr}
    {result : Except Fail Unit}
    (run : (cmd_renew ext say addr dry_run force min_days).Runs trace result)
    (hreading : Reading ext trace team_id profiles) :
    ∃ clock, Looked clock (latest_by_bundle (of_team team_id profiles)) trace ∧
      ExactlyDue (of_team team_id profiles) (Due clock force min_days (of_team team_id profiles))
        dry_run trace result := by
  cases cmd_renew_runs hsay run with
  | unread nothing unread => exact absurd hreading (unread _ _)
  | nothing_due reading looked none_due nothing =>
      obtain ⟨rfl, rfl⟩ := reading.unique hreading
      refine ⟨_, looked, ?_⟩
      have hnone := due_list_eq_nil.mp none_due
      have hout {e : Prog.Event Resp} (he : e.1.renewing = true) : e ∉ trace := by
        rw [← mem_steps he, nothing]
        exact List.not_mem_nil
      constructor
      case sign_in => exact iff_of_false (fun ⟨r, hr⟩ => hout rfl hr) hnone
      case log_in => exact iff_of_false (fun ⟨_, _, _, h⟩ => hout rfl h) (hout rfl)
      case dry =>
        intro _
        rw [← renewals_steps, nothing]
        rfl
      case renewed =>
        rw [← renewals_steps, nothing]
        refine ⟨_, [], due_apps _, .stopped, List.nil_prefix, fun _ _ => ?_⟩
        rw [none_due]
        rfl
  | due reading looked some_due renewing =>
      obtain ⟨rfl, rfl⟩ := reading.unique hreading
      exact ⟨_, looked, exactly_due_of_steps renewing some_due⟩

end Exactly

section Sample

-- A phone within reach that keeps what is installed, and Apple with a new profile for com.a.
def renewing_outside (phone : List Octets) : (c : Cmd) → Resp c × List Octets
  | .read_account => (some account_text, phone)
  | .pairing_exists => (true, phone)
  | .read_last_addr => (some sample_addr_text, phone)
  | .connect _ => (.linked, phone)
  | .copy_all => (.ok phone, phone)
  | .install blob => (.ok (), phone ++ [blob])
  | .prepare_state => (.ok (), phone)
  | .end_login => (.ok (), phone)
  | .developer_session => (.ok (), phone)
  | .list_teams => (.ok [⟨"T".toList, none⟩], phone)
  | .list_app_ids _ => (.ok [⟨"com.a".toList, []⟩], phone)
  | .download_profile _ _ => (.ok ⟨renewed_profile, 604800000000000⟩, phone)
  | c => (silent c, phone)

def println (line : Str) : Act Unit := ask (.println line)

def sample_renewal (phone : List Octets) : Prog.Trace Resp × Except Fail Unit :=
  (cmd_renew sample println none false false 3).exec renewing_outside phone

-- The profile on the phone has no date.
def com_a : PhoneProfile := {
  uuid := "U1".toList
  name := []
  team_id := some "T".toList
  bundle_id := some "com.a".toList
  expires := none }

theorem sample_head (phone : List Octets) :
    (sample_renewal phone).1.head? = some ⟨.read_account, some account_text⟩ := rfl

theorem sample_first_copy (phone : List Octets) :
    first_copy (sample_renewal phone).1 = some (.ok phone) := rfl

theorem sample_reading : Reading sample (sample_renewal [sample_profile]).1 "T".toList [com_a] where
  account := by
    refine ⟨account_text, sample_account, sample_head _, ?_, ?_, rfl⟩
    · simp only [sample, if_true]
    · decide
  phone := by
    refine ⟨[sample_profile], sample_first_copy _, ?_⟩
    decide +kernel

-- The app is due, and its new profile is installed.
theorem cmd_renew_exactly_due_com_a : ∃ trace result,
    (cmd_renew sample println none false false 3).Runs trace result ∧
    Reading sample trace "T".toList [com_a] ∧
    (∃ clock, ExactlyDue (of_team "T".toList [com_a])
        (Due clock false 3 (of_team "T".toList [com_a])) false trace result ∧
      ∃ bundle, Due clock false 3 (of_team "T".toList [com_a]) bundle) ∧
    (renewals trace).length = 2 ∧ ∃ r, ⟨.install renewed_profile, r⟩ ∈ renewals trace := by
  have hrun : (cmd_renew sample println none false false 3).Runs (sample_renewal [sample_profile]).1
      (sample_renewal [sample_profile]).2 := Prog.runs_exec _ _ _
  obtain ⟨clock, -, hexactly⟩ := cmd_renew_exactly_due println_reports hrun sample_reading
  have hprepared : ∃ r, ⟨.prepare_state, r⟩ ∈ (sample_renewal [sample_profile]).1 := by
    have hany : (sample_renewal [sample_profile]).1.any
        (fun e => match e.1 with | .prepare_state => true | _ => false) = true := by decide +kernel
    obtain ⟨⟨c, r⟩, hmem, hc⟩ := List.any_eq_true.mp hany
    cases c with
    | prepare_state => exact ⟨r, hmem⟩
    | _ => cases hc
  have hinstalled : ∃ r, ⟨.install renewed_profile, r⟩ ∈
      renewals (sample_renewal [sample_profile]).1 := by
    have hany : (renewals (sample_renewal [sample_profile]).1).any
        (fun e => match e.1 with | .install blob => blob = renewed_profile | _ => false) = true := by
      decide +kernel
    obtain ⟨⟨c, r⟩, hmem, hc⟩ := List.any_eq_true.mp hany
    cases c with
    | install blob =>
        obtain rfl : blob = renewed_profile := of_decide_eq_true hc
        exact ⟨r, hmem⟩
    | _ => cases hc
  have hlength : (renewals (sample_renewal [sample_profile]).1).length = 2 := by decide +kernel
  exact ⟨_, _, hrun, sample_reading, ⟨clock, hexactly, hexactly.sign_in.mp hprepared⟩, hlength,
    hinstalled⟩

end Sample

end AltKeeper
