import AltKeeper.Renew.Renewal

-- A renewal leaves nothing for the next one to do.
namespace AltKeeper

open Profile (PhoneProfile LatestOf latest_by_bundle latest_kept)

variable {ext : Ext} {trace : Prog.Trace Resp} {now : Int} {min_days : Int} {team_id : Str}

-- The profiles installed, and those downloaded with their App IDs.
def installs : Prog.Trace Resp → List Octets
  | [] => []
  | ⟨.install blob, .ok _⟩ :: trace => blob :: installs trace
  | _ :: trace => installs trace

def downloads : Prog.Trace Resp → List (AppId × Download)
  | [] => []
  | ⟨.download_profile _ app, .ok new⟩ :: trace => (app, new) :: downloads trace
  | _ :: trace => downloads trace

-- Each profile downloaded is one for its App ID, of the team, with more days than asked.
def Renewable (ext : Ext) (team_id : Str) (now min_days : Int) (trace : Prog.Trace Resp) : Prop :=
  ∀ d ∈ downloads trace, ∃ p days, ext.parse d.2.encoded_profile = some (some p) ∧
    p.team_id = some team_id ∧ p.bundle_id = some d.1.identifier ∧
    p.days_left now = some days ∧ min_days < days

-- The phone gives what it gave before, in any order, and what was installed since.
def Keeps (trace trace' : Prog.Trace Resp) : Prop :=
  ∀ blobs blobs', first_copy trace = some (.ok blobs) → first_copy trace' = some (.ok blobs') →
    ∀ x, x ∈ blobs' ↔ x ∈ blobs ∨ x ∈ installs trace

section Profiles

theorem mem_parse_all {blobs : List Octets} {profiles : List PhoneProfile}
    (h : Phone.parse_all ext blobs = some profiles) (p : PhoneProfile) :
    p ∈ profiles ↔ ∃ x ∈ blobs, ext.parse x = some (some p) := by
  induction blobs generalizing profiles with
  | nil =>
      obtain rfl := Option.some.inj h
      simp
  | cons x blobs ih =>
      obtain ⟨parsed, hparsed, hrest⟩ := Option.bind_eq_some_iff.mp h
      obtain ⟨others, hothers, hall⟩ := Option.bind_eq_some_iff.mp hrest
      obtain rfl := Option.some.inj hall
      rw [List.mem_append, ih hothers, Option.mem_toList]
      constructor
      · rintro (hp | ⟨y, hy, hp⟩)
        · exact ⟨x, List.mem_cons_self, hparsed.trans (congrArg some hp)⟩
        · exact ⟨y, List.mem_cons_of_mem _ hy, hp⟩
      · rintro ⟨y, hy, hp⟩
        rcases List.mem_cons.mp hy with rfl | hy
        · exact .inl (Option.some.inj (hparsed.symm.trans hp))
        · exact .inr ⟨y, hy, hp⟩

theorem mem_of_team {profiles : List PhoneProfile} {p : PhoneProfile} :
    p ∈ of_team team_id profiles ↔ p ∈ profiles ∧ p.team_id = some team_id := by
  simp [of_team]

-- While the clock stands still it is the same for every bundle.
theorem due_at {clock : Str → Int} {force : Bool} {mine : List PhoneProfile} {bundle : Str}
    (hlooked : Looked clock (latest_by_bundle mine) trace) (hclock : ClockAt now trace) :
    Due clock force min_days mine bundle ↔ Due (fun _ => now) force min_days mine bundle := by
  refine exists_congr fun p => and_congr_right fun hlatest => ?_
  obtain ⟨hp, hbundle⟩ := (latest_kept mine).mem_iff.mpr hlatest
  cases hdate : p.expires with
  | none => rw [days_at_undated hdate (clock bundle) now]
  | some x => rw [hclock _ (hlooked p hp bundle hbundle (by simp [hdate]))]

end Profiles

section Installed

variable {apps done : List AppId} {events : Prog.Trace Resp}

theorem installs_renewals (trace : Prog.Trace Resp) : installs (renewals trace) = installs trace := by
  induction trace with
  | nil => rfl
  | cons e trace ih =>
      obtain ⟨c, r⟩ := e
      cases c with
      | install blob => cases r <;> first | exact ih | exact congrArg (blob :: ·) ih
      | download_profile team app => exact ih
      | _ => exact ih

theorem downloads_renewals (trace : Prog.Trace Resp) :
    downloads (renewals trace) = downloads trace := by
  induction trace with
  | nil => rfl
  | cons e trace ih =>
      obtain ⟨c, r⟩ := e
      cases c with
      | install blob => exact ih
      | download_profile team app => cases r <;> first | exact ih | exact congrArg (_ :: ·) ih
      | _ => exact ih

theorem Renewed.of_done (h : Renewed apps done events) {app : AppId} (happ : app ∈ done) :
    ∃ new, (app, new) ∈ downloads events ∧ new.encoded_profile ∈ installs events := by
  induction h with
  | stopped => exact absurd happ List.not_mem_nil
  | not_downloaded => exact absurd happ List.not_mem_nil
  | refused => exact absurd happ List.not_mem_nil
  | @installed first apps done team new events rest ih =>
      rcases List.mem_cons.mp happ with rfl | happ
      · exact ⟨new, List.mem_cons_self, List.mem_cons_self⟩
      · obtain ⟨new', hdownload, hinstall⟩ := ih happ
        exact ⟨new', List.mem_cons_of_mem _ hdownload, List.mem_cons_of_mem _ hinstall⟩

-- Only what was downloaded is installed.
theorem Renewed.of_installed (h : Renewed apps done events) {x : Octets} (hx : x ∈ installs events) :
    ∃ d ∈ downloads events, x = d.2.encoded_profile := by
  induction h with
  | stopped => exact absurd hx List.not_mem_nil
  | not_downloaded => exact absurd hx List.not_mem_nil
  | refused => exact absurd hx List.not_mem_nil
  | installed rest ih =>
      rcases List.mem_cons.mp hx with rfl | hx
      · exact ⟨_, List.mem_cons_self, rfl⟩
      · obtain ⟨d, hd, heq⟩ := ih hx
        exact ⟨d, List.mem_cons_of_mem _ hd, heq⟩

end Installed

section Convergence

variable {profiles profiles' : List PhoneProfile} {force : Bool}

-- With the old profiles still there and a new one for each bundle that was due, none is.
theorem nothing_due_after (hold : ∀ p ∈ profiles, p ∈ profiles')
    (hnew : ∀ p ∈ profiles', p ∈ profiles ∨ min_days < days_at now p)
    (hrenewed : ∀ bundle, Due (fun _ => now) force min_days (of_team team_id profiles) bundle →
      ∃ q ∈ profiles', q.team_id = some team_id ∧ q.bundle_id = some bundle ∧
        ∃ days, q.days_left now = some days ∧ min_days < days) (bundle : Str) :
    ¬ Due (fun _ => now) false min_days (of_team team_id profiles') bundle := by
  rintro ⟨p', hlatest', hdue⟩
  have hdays : days_at now p' ≤ min_days := hdue.resolve_left Bool.false_ne_true
  obtain ⟨hp', hteam'⟩ := mem_of_team.mp hlatest'.mem
  have hbundle' := ((latest_kept _).mem_iff.mpr hlatest').2
  rcases hnew p' hp' with hp' | hlong
  case inr => exact absurd hdays (not_le_of_gt hlong)
  by_cases hwas : Due (fun _ => now) force min_days (of_team team_id profiles) bundle
  · -- the new profile lasts long enough, and the latest lasts no less
    obtain ⟨q, hq, hteam, hbundle, days, hleft, hlong⟩ := hrenewed bundle hwas
    have hwhen := hlatest'.rank_le (mem_of_team.mpr ⟨hq, hteam⟩) hbundle
    have hdate : q.expires.isSome := by
      obtain ⟨x, hx, -⟩ := Option.map_eq_some_iff.mp hleft
      simp [hx]
    have hmono := days_at_mono now hwhen hdate
    have hq' : days_at now q = days := by rw [days_at, hleft, Option.getD_some]
    omega
  · -- the latest of a bundle that was not due is as it was
    have hmine : p' ∈ of_team team_id profiles := mem_of_team.mpr ⟨hp', hteam'⟩
    obtain ⟨p, -, hlatest⟩ := (latest_kept _).one (List.mem_map.mpr ⟨p', hmine, hbundle'⟩)
    obtain ⟨hp, hteam⟩ := mem_of_team.mp hlatest.mem
    have hbundle := ((latest_kept _).mem_iff.mpr hlatest).2
    have hle : p'.when ≤ p.when := hlatest.rank_le hmine hbundle'
    have hge : p.when ≤ p'.when := hlatest'.rank_le (mem_of_team.mpr ⟨hold p hp, hteam⟩) hbundle
    have hwhen : p.when = p'.when := le_antisymm hge hle
    have hsame : p.expires = p'.expires := hwhen
    have hlong : ¬ days_at now p ≤ min_days := fun h => hwas ⟨p, hlatest, .inr h⟩
    rw [days_at, PhoneProfile.days_left, hsame] at hlong
    exact hlong hdays

variable {trace' : Prog.Trace Resp} {say say' : Str → Act Unit}
  (hsay : ∀ line, (say line).Uses (·.reports = true))
  (hsay' : ∀ line, (say' line).Uses (·.reports = true)) {addr addr' : Option SocketAddr}
  {dry_run : Bool} {result : Except Fail Unit}

include hsay in
-- What the phone holds after a renewal that succeeded leaves nothing due.
theorem renewed_nothing_due
    (run : (cmd_renew ext say addr false force min_days).Runs trace (.ok ()))
    (hclock : ClockAt now trace) (hkeeps : Keeps trace trace')
    (hreading : Reading ext trace team_id profiles) (hreading' : Reading ext trace' team_id profiles')
    (hids : ∀ bundle, Due (fun _ => now) force min_days (of_team team_id profiles) bundle →
      bundle ∈ (listed trace).map (·.identifier))
    (hrenewable : Renewable ext team_id now min_days trace) (bundle : Str) :
    ¬ Due (fun _ => now) false min_days (of_team team_id profiles') bundle := by
  obtain ⟨clock, hlooked, hexactly⟩ := cmd_renew_exactly_due hsay run hreading
  obtain ⟨apps, done, hdue, hrenewed, -, hall⟩ := hexactly.renewed
  obtain rfl := hall rfl rfl
  obtain ⟨blobs, hcopy, hparse⟩ := hreading.phone
  obtain ⟨blobs', hcopy', hparse'⟩ := hreading'.phone
  have hblobs := hkeeps blobs blobs' hcopy hcopy'
  have hold : ∀ p ∈ profiles, p ∈ profiles' := by
    intro p hp
    obtain ⟨x, hx, hparsed⟩ := (mem_parse_all hparse p).mp hp
    exact (mem_parse_all hparse' p).mpr ⟨x, (hblobs x).mpr (.inl hx), hparsed⟩
  have hnew : ∀ p ∈ profiles', p ∈ profiles ∨ min_days < days_at now p := by
    intro p hp
    obtain ⟨x, hx, hparsed⟩ := (mem_parse_all hparse' p).mp hp
    rcases (hblobs x).mp hx with hx | hx
    · exact .inl ((mem_parse_all hparse p).mpr ⟨x, hx, hparsed⟩)
    · rw [← installs_renewals] at hx
      obtain ⟨d, hd, rfl⟩ := hrenewed.of_installed hx
      rw [downloads_renewals] at hd
      obtain ⟨q, days, hq, -, -, hleft, hlong⟩ := hrenewable d hd
      obtain rfl : q = p := by simpa using hq.symm.trans hparsed
      right
      rwa [days_at, hleft, Option.getD_some]
  have hwas : ∀ bundle, Due (fun _ => now) force min_days (of_team team_id profiles) bundle →
      ∃ q ∈ profiles', q.team_id = some team_id ∧ q.bundle_id = some bundle ∧
        ∃ days, q.days_left now = some days ∧ min_days < days := by
    intro bundle hwas
    have hjob := (hdue.iff_due bundle).mpr ⟨(due_at hlooked hclock).mpr hwas, hids bundle hwas⟩
    obtain ⟨app, happ, rfl⟩ := List.mem_map.mp hjob
    obtain ⟨new, hdownload, hinstall⟩ := hrenewed.of_done happ
    rw [downloads_renewals] at hdownload
    rw [installs_renewals] at hinstall
    obtain ⟨q, days, hq, hteam, hbundle, hleft, hlong⟩ := hrenewable _ hdownload
    exact ⟨q, (mem_parse_all hparse' q).mpr ⟨_, (hblobs _).mpr (.inr hinstall), hq⟩, hteam, hbundle,
      days, hleft, hlong⟩
  exact nothing_due_after hold hnew hwas bundle

include hsay hsay' in
-- After a renewal that succeeded, with a new profile for each bundle that was due, another one at
-- the same time finds nothing due: it does not sign in, and installs nothing.
theorem cmd_renew_converges
    (run : (cmd_renew ext say addr false force min_days).Runs trace (.ok ()))
    (run' : (cmd_renew ext say' addr' dry_run false min_days).Runs trace' result)
    (hclock : ClockAt now trace) (hclock' : ClockAt now trace') (haccount : trace'.head? = trace.head?)
    (hkeeps : Keeps trace trace') (hreading : Reading ext trace team_id profiles)
    (hids : ∀ bundle, Due (fun _ => now) force min_days (of_team team_id profiles) bundle →
      bundle ∈ (listed trace).map (·.identifier))
    (hrenewable : Renewable ext team_id now min_days trace) :
    (∀ profiles', Reading ext trace' team_id profiles' → ∀ bundle,
      ¬ Due (fun _ => now) false min_days (of_team team_id profiles') bundle) ∧
    ∀ e ∈ trace', e.1.renewing = false := by
  have hnothing (profiles' : List PhoneProfile) (hreading' : Reading ext trace' team_id profiles') :=
    renewed_nothing_due hsay run hclock hkeeps hreading hreading' hids hrenewable
  refine ⟨hnothing, fun e he => ?_⟩
  have hsteps : steps trace' = [] := by
    cases cmd_renew_runs hsay' run' with
    | unread nothing unread => exact nothing
    | nothing_due reading looked none_due nothing => exact nothing
    | due reading looked some_due renewing =>
        obtain ⟨raw, acc, hhead, hacc, -, hteam⟩ := hreading.account
        obtain ⟨raw', acc', hhead', hacc', -, hteam'⟩ := reading.account
        obtain rfl : raw = raw' := by simpa using (haccount.trans hhead).symm.trans hhead'
        obtain rfl : acc = acc' := by simpa using hacc.symm.trans hacc'
        obtain rfl := Option.some.inj (hteam.symm.trans hteam')
        refine absurd (due_list_eq_nil.mpr ?_) some_due
        rintro ⟨bundle, hdue⟩
        exact hnothing _ reading bundle ((due_at looked hclock').mp hdue)
  exact Bool.eq_false_iff.mpr (List.filter_eq_nil_iff.mp hsteps e he)

end Convergence

section Sample

theorem renewing_clock {α : Type} (p : Act α) (phone : List Octets) :
    ClockAt 0 (p.exec renewing_outside phone).1 := by
  intro t ht
  obtain ⟨phone', ht'⟩ := Prog.exec_mem _ _ _ _ ht
  exact ht'

-- The new profile has seven days left at the time of the two renewals.
def com_a_renewed : PhoneProfile := {
  uuid := "U2".toList
  name := []
  team_id := some "T".toList
  bundle_id := some "com.a".toList
  expires := some 604800000000000 }

theorem sample_renewable : Renewable sample "T".toList 0 3 (sample_renewal [sample_profile]).1 := by
  have hdownloads : (downloads (sample_renewal [sample_profile]).1).map
      (fun d => (d.1.identifier, d.2.encoded_profile)) = [("com.a".toList, renewed_profile)] := by
    decide +kernel
  intro d hd
  have hmem := List.mem_map_of_mem (f := fun d => (d.1.identifier, d.2.encoded_profile)) hd
  rw [hdownloads, List.mem_singleton] at hmem
  obtain ⟨hid, hblob⟩ := Prod.mk.inj hmem
  rw [hid, hblob]
  refine ⟨com_a_renewed, 7, ?_, rfl, rfl, rfl, by decide⟩
  decide +kernel

theorem sample_renewal_ok : (sample_renewal [sample_profile]).2 = .ok () := by
  have hok : (sample_renewal [sample_profile]).2.isOk = true := by decide +kernel
  cases hresult : (sample_renewal [sample_profile]).2 with
  | ok _ => rfl
  | error f =>
      rw [hresult] at hok
      cases hok

theorem cmd_renew_converges_com_a : ∃ trace trace' result,
    (cmd_renew sample println none false false 3).Runs trace (.ok ()) ∧
    (cmd_renew sample println none false false 3).Runs trace' result ∧
    installs trace = [renewed_profile] ∧ ∀ e ∈ trace', e.1.renewing = false := by
  have hrun : (cmd_renew sample println none false false 3).Runs (sample_renewal [sample_profile]).1
      (sample_renewal [sample_profile]).2 := Prog.runs_exec _ _ _
  have hrun' : (cmd_renew sample println none false false 3).Runs
      (sample_renewal [renewed_profile, sample_profile]).1
      (sample_renewal [renewed_profile, sample_profile]).2 := Prog.runs_exec _ _ _
  rw [sample_renewal_ok] at hrun
  have hinstalls : installs (sample_renewal [sample_profile]).1 = [renewed_profile] := by
    decide +kernel
  have haccount := (sample_head [renewed_profile, sample_profile]).trans
    (sample_head [sample_profile]).symm
  refine ⟨_, _, _, hrun, hrun', hinstalls, (cmd_renew_converges println_reports println_reports hrun
    hrun' (renewing_clock _ _) (renewing_clock _ _) haccount ?_ sample_reading ?_
    sample_renewable).2⟩
  · intro blobs blobs' hcopy hcopy' x
    rw [sample_first_copy] at hcopy hcopy'
    rw [← Except.ok.inj (Option.some.inj hcopy), ← Except.ok.inj (Option.some.inj hcopy'),
      hinstalls, List.mem_cons, or_comm]
    exact or_congr_right List.mem_singleton.symm
  · have hlisted : (listed (sample_renewal [sample_profile]).1).map (·.identifier) =
        ["com.a".toList] := by decide +kernel
    rintro bundle ⟨p, hlatest, -⟩
    have hp := (mem_of_team.mp hlatest.mem).1
    obtain rfl := List.mem_singleton.mp hp
    have hbundle := ((latest_kept _).mem_iff.mpr hlatest).2
    obtain rfl : "com.a".toList = bundle := Option.some.inj hbundle
    rw [hlisted]
    exact List.mem_singleton_self _

end Sample

end AltKeeper
