import AltKeeper.Developer.Renewal
import AltKeeper.Developer.Token
import AltKeeper.Renew.Renewal

-- What a renewal asks of the developer services, in whose name, and what it installs.
namespace AltKeeper.Developer

open GrandSlam (Answer Call Cause Dictionary Full Headers Report no_code open_session open_session_uses
  pick_team)
open Prog (Both Trace chronicle chronicle_seq inner outer runs_adapt runs_inner runs_lift_bind runs_ok
  runs_outer runs_try uses_adapt uses_inner uses_lift_bind uses_outer uses_try wp_chronicle wp_mono
  wp_seq)
open Profile (latest_by_bundle latest_kept)

section Answers

variable {lib : Libs} {sess : DeveloperSession} {trace : Trace (Both Answer Resp)}

-- The App IDs that were listed.
def Listed (lib : Libs) (past : Trace (Both Answer Resp)) (team_id : Str) (ids : List AppId) : Prop :=
  ∃ sess dict, Answered lib (told_in past) sess (dev_url "listAppIds" (some .ios))
    (team_body team_id) dict ∧ lib.app_ids dict = .ok ids

theorem listed_of_runs {team : DeveloperTeam} {ids : List AppId}
    (h : (app_ids lib sess team).Runs trace (.ok ids)) : Listed lib trace team.team_id ids := by
  obtain ⟨first, r, rest, rfl, hfirst, rfl, hsame⟩ := (Prog.runs_bind _ _ _ _).mp h
  rw [List.append_nil]
  cases r with
  | error e => cases hsame
  | ok ids' =>
      cases hsame
      refine ⟨sess, answered_of_outer (fun calls hcalls => ?_) hfirst⟩
      obtain ⟨first, dict, rest, rfl, hfirst, hrest⟩ := runs_try hcalls
      refine ⟨dict, (send_dev_request_no_response_runs (runs_adapt hfirst)).mono
        fun _ _ _ => List.mem_append_left _, ?_⟩
      cases hids : lib.app_ids dict with
      | error e =>
          rw [hids] at hrest
          cases hrest.2
      | ok found =>
          rw [hids] at hrest
          cases hrest.2
          rfl

-- A profile that was asked for, of an App ID of the team, and given.
def Given (lib : Libs) (past : Trace (Both Answer Resp)) (team_id app_id_id : Str) (new : Download) :
    Prop :=
  ∃ sess dict, Answered lib (told_in past) sess (dev_url "downloadTeamProvisioningProfile" (some .ios))
    (app_body team_id app_id_id) dict ∧ get_struct lib.profile dict "provisioningProfile" = .ok new

theorem Given.mono {past past' : Trace (Both Answer Resp)} {team_id app_id_id : Str} {new : Download}
    (h : Given lib past team_id app_id_id new) (hsub : past ⊆ past') :
    Given lib past' team_id app_id_id new := by
  obtain ⟨sess, dict, hanswered, hstruct⟩ := h
  exact ⟨sess, dict, hanswered.mono fun _ _ _ htold => hsub htold, hstruct⟩

theorem given_of_runs {team : DeveloperTeam} {app : AppId} {new : Download}
    (h : (download_profile lib sess team app).Runs trace (.ok new)) :
    Given lib trace team.team_id app.app_id_id new := by
  obtain ⟨first, r, rest, rfl, hfirst, rfl, hsame⟩ := (Prog.runs_bind _ _ _ _).mp h
  rw [List.append_nil]
  cases r with
  | error e => cases hsame
  | ok new' =>
      cases hsame
      exact ⟨sess, answered_of_outer (fun _ hcalls => send_dev_request_runs (runs_adapt hcalls)) hfirst⟩

end Answers

section Permitted

-- The account that was read names the team, and by the profiles that were read from the phone the
-- bundle is due.
def Wanted (ext : Ext) (force : Bool) (min_days : Int) (past : Trace (Both Answer Resp))
    (team_id bundle : Str) : Prop :=
  ∃ profiles clock, Reading ext (Trace.inner past) team_id profiles ∧
    Looked clock (latest_by_bundle (of_team team_id profiles)) (Trace.inner past) ∧
    Due clock force min_days (of_team team_id profiles) bundle

-- What is asked of the services, once something is due: the teams; the App IDs of the account's team;
-- and, unless the run is dry, a profile for an App ID that was listed, whose bundle is due.
inductive Asks (lib : Libs) (ext : Ext) (dry_run force : Bool) (min_days : Int)
    (past : Trace (Both Answer Resp)) : Str → Dictionary → Prop
  | teams {team_id bundle : Str} (request_id : Str)
      (wanted : Wanted ext force min_days past team_id bundle) :
      Asks lib ext dry_run force min_days past (dev_url "listTeams" (some .any))
        (dev_body request_id [])
  | app_ids {team_id bundle : Str} (request_id : Str)
      (wanted : Wanted ext force min_days past team_id bundle) :
      Asks lib ext dry_run force min_days past (dev_url "listAppIds" (some .ios))
        (dev_body request_id (team_body team_id))
  | profile {team_id : Str} {ids : List AppId} {app : AppId} (request_id : Str)
      (wanted : Wanted ext force min_days past team_id app.identifier)
      (listed : Listed lib past team_id ids) (mem : app ∈ ids) (wet : dry_run = false) :
      Asks lib ext dry_run force min_days past (dev_url "downloadTeamProvisioningProfile" (some .ios))
        (dev_body request_id (app_body team_id app.app_id_id))

-- The account that was read was signed in to this session.
def Entered (lib : Libs) (ext : Ext) (past : Trace (Both Answer Resp)) (sess : DeveloperSession) :
    Prop :=
  ∃ raw acc, (Trace.inner past).head? = some ⟨.read_account, some raw⟩ ∧ ext.account raw = .ok acc ∧
    Backed lib acc.apple_id acc.password (told_in past) sess

-- The headers show its token.
def Carries (lib : Libs) (ext : Ext) (past : Trace (Both Answer Resp)) (headers : Headers) : Prop :=
  ∃ sess anisette, Entered lib ext past sess ∧ sess.header_map anisette = .ok headers

-- What is installed was asked for and given.
def Reads (lib : Libs) (ext : Ext) (dry_run force : Bool) (min_days : Int)
    (past : Trace (Both Answer Resp)) : Call ⊕ Cmd → Prop
  | .inl (.send (.developer url body _)) => Asks lib ext dry_run force min_days past url body
  | .inr (.install blob) => ∃ team_id app_id_id new, Given lib past team_id app_id_id new ∧
      new.encoded_profile = blob
  | _ => True

def Permitted (lib : Libs) (ext : Ext) (dry_run force : Bool) (min_days : Int)
    (past : Trace (Both Answer Resp)) : Call ⊕ Cmd → Prop
  | .inl (.send (.developer url body headers)) =>
      Asks lib ext dry_run force min_days past url body ∧ Carries lib ext past headers
  | .inr (.install blob) => ∃ team_id app_id_id new, Given lib past team_id app_id_id new ∧
      new.encoded_profile = blob
  | _ => True

variable {lib : Libs} {ext : Ext} {dry_run force : Bool} {min_days : Int}
  {past : Trace (Both Answer Resp)}

theorem Wanted.mono {team_id bundle : Str} (h : Wanted ext force min_days past team_id bundle)
    (rest : Trace (Both Answer Resp)) :
    Wanted ext force min_days (past ++ rest) team_id bundle := by
  obtain ⟨profiles, clock, ⟨⟨raw, acc, hhead, hacc⟩, blobs, hcopy, hparse⟩, hlooked, hdue⟩ := h
  refine ⟨profiles, clock, ⟨⟨raw, acc, ?_, hacc⟩, blobs, ?_, hparse⟩, hlooked.mono ?_, hdue⟩
  · rw [Trace.inner_append, List.head?_append, hhead]
    rfl
  · rw [Trace.inner_append]
    exact first_copy_of_some hcopy _
  · rw [Trace.inner_append]
    exact List.subset_append_left _ _

theorem Asks.mono {url : Str} {body : Dictionary}
    (h : Asks lib ext dry_run force min_days past url body) (rest : Trace (Both Answer Resp)) :
    Asks lib ext dry_run force min_days (past ++ rest) url body := by
  cases h with
  | teams request_id wanted => exact .teams request_id (wanted.mono rest)
  | app_ids request_id wanted => exact .app_ids request_id (wanted.mono rest)
  | profile request_id wanted listed mem wet =>
      obtain ⟨sess, dict, hanswered, hids⟩ := listed
      exact .profile request_id (wanted.mono rest)
        ⟨sess, dict, hanswered.mono fun c r _ => told_in_append past rest c r, hids⟩ mem wet

theorem Entered.mono {sess : DeveloperSession} (h : Entered lib ext past sess)
    (rest : Trace (Both Answer Resp)) : Entered lib ext (past ++ rest) sess := by
  obtain ⟨raw, acc, hhead, hacc, hbacked⟩ := h
  refine ⟨raw, acc, ?_, hacc, hbacked.mono fun c r _ => told_in_append past rest c r⟩
  rw [Trace.inner_append, List.head?_append, hhead]
  rfl

theorem Permitted.mono (past rest : Trace (Both Answer Resp)) (c : Call ⊕ Cmd)
    (h : Permitted lib ext dry_run force min_days past c) :
    Permitted lib ext dry_run force min_days (past ++ rest) c := by
  cases c with
  | inl c =>
      cases c with
      | send req =>
          cases req with
          | developer url body headers =>
              obtain ⟨hasks, sess, anisette, hentered, hmap⟩ := h
              exact ⟨hasks.mono rest, sess, anisette, hentered.mono rest, hmap⟩
          | _ => trivial
      | _ => trivial
  | inr c =>
      cases c with
      | install blob =>
          obtain ⟨team_id, app_id_id, new, hgiven, hblob⟩ := h
          exact ⟨team_id, app_id_id, new, hgiven.mono (List.subset_append_left _ _), hblob⟩
      | _ => trivial

theorem Permitted.reads {c : Call ⊕ Cmd} (h : Permitted lib ext dry_run force min_days past c) :
    Reads lib ext dry_run force min_days past c := by
  cases c with
  | inl c =>
      cases c with
      | send req =>
          cases req with
          | developer url body headers => exact h.1
          | _ => trivial
      | _ => trivial
  | inr c =>
      cases c with
      | install blob => exact h
      | _ => trivial

end Permitted

section Renewal

variable {lib : Libs} {ext : Ext} {say : Str → Act Unit} {dry_run force : Bool} {min_days : Int}
  {past : Trace (Both Answer Resp)} {sess : DeveloperSession}

abbrev permitting (lib : Libs) (ext : Ext) (dry_run force : Bool) (min_days : Int) :
    Prog.Protocol (Both Answer Resp) (Trace (Both Answer Resp)) :=
  chronicle (Permitted lib ext dry_run force min_days)

theorem Permitted.stays {α : Type} {p : Full α}
    (hp : p.Uses (Permitted lib ext dry_run force min_days past)) :
    p.Uses fun c => ∀ rest, Permitted lib ext dry_run force min_days (past ++ rest) c :=
  hp.mono fun c h rest => h.mono past rest c

-- What is permitted from the start is followed by what its run permits.
theorem permitted_seq {α β : Type} {p : Full α} {f : α → Full β}
    (hp : p.Uses (Permitted lib ext dry_run force min_days past))
    (hf : ∀ trace a, p.Runs trace a →
      (f a).wp (permitting lib ext dry_run force min_days) (fun _ _ => True) (past ++ trace)) :
    (p >>= f).wp (permitting lib ext dry_run force min_days) (fun _ _ => True) past :=
  chronicle_seq (Permitted.stays hp) hf

-- Commands that install nothing, and calls that ask nothing of the services, are permitted anywhere.
theorem inner_permitted {α : Type} {p : Act α} (hp : p.Uses fun c => ∀ blob, c ≠ .install blob) :
    (inner p : Full α).Uses (Permitted lib ext dry_run force min_days past) :=
  uses_inner hp fun c hc => by
    cases c with
    | install blob => exact absurd rfl (hc blob)
    | _ => trivial

theorem session_permitted (apple_id password : Str) :
    (open_session lib no_code apple_id password).Uses
      (Permitted lib ext dry_run force min_days past) := by
  have hcode : ∀ params, (no_code params).Uses fun c =>
      Permitted lib ext dry_run force min_days past (.inr c) := fun _ => trivial
  refine open_session_uses trivial hcode (fun c hc => ?_) apple_id password
  cases c with
  | send req =>
      cases req with
      | developer url body headers => cases hc
      | _ => trivial
  | _ => trivial

theorem teams_permitted {team_id bundle : Str} (hentered : Entered lib ext past sess)
    (hwanted : Wanted ext force min_days past team_id bundle) :
    (pick_team lib sess (some team_id)).Uses (Permitted lib ext dry_run force min_days past) := by
  have hlist : (list_teams lib sess).run.Uses fun c =>
      Permitted lib ext dry_run force min_days past (.inl c) :=
    uses_adapt (send_dev_request_uses (fun _ => trivial) trivial fun id anisette _ hmap =>
      ⟨.teams id hwanted, sess, anisette, hentered, hmap⟩)
  refine Prog.Uses.bind (uses_outer hlist fun _ h => h) ?_
  rintro (e | _ | ⟨first, teams⟩)
  · trivial
  · trivial
  · dsimp only
    split <;> trivial

theorem team_of_runs {trace : Trace (Both Answer Resp)} {id : Str} {team : DeveloperTeam}
    (h : (pick_team lib sess (some id)).Runs trace (.ok team)) : team.team_id = id := by
  obtain ⟨first, teams, rest, rfl, -, hrest⟩ := (Prog.runs_bind _ _ _ _).mp h
  rcases teams with e | _ | ⟨first, teams⟩
  · cases hrest.2
  · cases hrest.2
  · dsimp only at hrest
    cases hfind : (first :: teams).find? (·.team_id = id) with
    | none =>
        rw [hfind] at hrest
        cases hrest.2
    | some found =>
        rw [hfind] at hrest
        cases hrest.2
        simpa using List.find?_some hfind

theorem app_ids_permitted {team : DeveloperTeam} {bundle : Str} (hentered : Entered lib ext past sess)
    (hwanted : Wanted ext force min_days past team.team_id bundle) :
    (app_ids lib sess team).Uses (Permitted lib ext dry_run force min_days past) := by
  have hlist : (list_app_ids lib sess team (some .ios)).run.Uses fun c =>
      Permitted lib ext dry_run force min_days past (.inl c) := by
    refine uses_try (uses_adapt (send_dev_request_no_response_uses (fun _ => trivial) trivial
      fun id anisette _ hmap => ⟨.app_ids id hwanted, sess, anisette, hentered, hmap⟩)) fun dict => ?_
    cases h : lib.app_ids dict <;> trivial
  exact Prog.Uses.bind (uses_outer hlist fun _ h => h) fun _ => trivial

theorem download_permitted {team : DeveloperTeam} {app : AppId} (hentered : Entered lib ext past sess)
    (h : ∀ request_id, Asks lib ext dry_run force min_days past
      (dev_url "downloadTeamProvisioningProfile" (some .ios))
      (dev_body request_id (app_body team.team_id app.app_id_id))) :
    (download_profile lib sess team app).Uses (Permitted lib ext dry_run force min_days past) := by
  have hdownload : (download_team_provisioning_profile lib sess team app (some .ios)).run.Uses
      fun c => Permitted lib ext dry_run force min_days past (.inl c) :=
    uses_adapt (send_dev_request_uses (fun _ => trivial) trivial fun id anisette _ hmap =>
      ⟨h id, sess, anisette, hentered, hmap⟩)
  exact Prog.Uses.bind (uses_outer hdownload fun _ h => h) fun _ => trivial

variable (hsay : ∀ line, (say line).Uses (·.reports = true))

include hsay

theorem say_permitted (line : Str) :
    (inner (say line) : Full Unit).Uses (Permitted lib ext dry_run force min_days past) :=
  inner_permitted ((hsay line).mono fun c hc blob h => by cases h; cases hc)

-- The loop, where the downloads that it may come to are permitted.
theorem renew_loop_wp (team : DeveloperTeam) (ids : List AppId) (due : List (Str × Int)) (done : Nat)
    (hentered : Entered lib ext past sess)
    (hdownloads : ∀ app ∈ ids, app.identifier ∈ due.map Prod.fst → dry_run = false →
      ∀ request_id, Asks lib ext dry_run force min_days past
        (dev_url "downloadTeamProvisioningProfile" (some .ios))
        (dev_body request_id (app_body team.team_id app.app_id_id))) :
    (renew_loop lib ext say sess dry_run team ids due done).wp
      (permitting lib ext dry_run force min_days) (fun _ _ => True) past := by
  induction due generalizing past done with
  | nil => trivial
  | cons d due ih =>
      obtain ⟨bundle, days⟩ := d
      have hrest (rest : Trace (Both Answer Resp)) (done : Nat) :=
        ih done (hentered.mono rest) fun app happ hdue hwet id =>
          (hdownloads app happ (List.mem_cons_of_mem _ hdue) hwet id).mono rest
      rw [renew_loop]
      cases hfind : ids.find? (·.identifier = bundle) with
      | none => exact permitted_seq (say_permitted hsay _) fun rest _ _ => hrest rest done
      | some app =>
          have happ : app ∈ ids := List.mem_of_find?_eq_some hfind
          have hbundle : app.identifier = bundle := by simpa using List.find?_some hfind
          cases dry_run with
          | true => exact permitted_seq (say_permitted hsay _) fun rest _ _ => hrest rest done
          | false =>
              refine permitted_seq (say_permitted hsay _) fun said _ _ => ?_
              have hpermitted (id : Str) :=
                (hdownloads app happ (by simp [hbundle]) rfl id).mono said
              refine permitted_seq (download_permitted (hentered.mono said) hpermitted)
                fun downloading new hnew => ?_
              cases new with
              | error e => trivial
              | ok new =>
                  refine permitted_seq (say_permitted hsay _) fun said' _ _ => ?_
                  have hgiven : Given lib (past ++ said ++ downloading ++ said') team.team_id
                      app.app_id_id new :=
                    (given_of_runs hnew).mono fun e he => by simp [he]
                  have hinstall : (inner (ask (.install new.encoded_profile)) : Full _).Uses
                      (Permitted lib ext false force min_days
                        (past ++ said ++ downloading ++ said')) :=
                    ⟨⟨_, _, new, hgiven, rfl⟩, fun _ => trivial⟩
                  refine permitted_seq hinstall fun installing installed _ => ?_
                  cases installed with
                  | error e => trivial
                  | ok _ =>
                      refine permitted_seq (say_permitted hsay _) fun said'' _ _ => ?_
                      simpa only [List.append_assoc] using
                        hrest (said ++ (downloading ++ (said' ++ (installing ++ said'')))) (done + 1)

theorem final_check_permitted (team_id : Str) :
    (inner (final_check ext say team_id) : Full _).Uses
      (Permitted lib ext dry_run force min_days past) :=
  inner_permitted (final_check_uses (fun line => (hsay line).mono fun c hc blob h => by cases h; cases hc)
    (fun _ => Cmd.noConfusion) (fun _ => Cmd.noConfusion) team_id)

theorem renew_due_wp {raw : Str} {acc : Account} {team_id : Str} {due : List (Str × Int)}
    (hhead : (Trace.inner past).head? = some ⟨.read_account, some raw⟩)
    (hacc : ext.account raw = .ok acc) (hsome : due ≠ [])
    (hwanted : ∀ bundle ∈ due.map Prod.fst, Wanted ext force min_days past team_id bundle) :
    (renew_due lib ext say acc team_id dry_run due).wp (permitting lib ext dry_run force min_days)
      (fun _ _ => True) past := by
  obtain ⟨d, hd⟩ := List.exists_mem_of_ne_nil due hsome
  have hfirst := hwanted d.1 (List.mem_map_of_mem hd)
  refine permitted_seq (say_permitted hsay _) fun said _ _ => ?_
  refine permitted_seq (session_permitted _ _) fun opening session hopening => ?_
  cases session with
  | error e => trivial
  | ok sess =>
      have hentered : Entered lib ext (past ++ said ++ opening) sess := by
        refine ⟨raw, acc, ?_, hacc, (open_session_backed hopening).mono fun c r _ hmem => ?_⟩
        · rw [List.append_assoc, Trace.inner_append, List.head?_append, hhead]
          rfl
        · exact List.mem_append_right _ hmem
      refine permitted_seq (teams_permitted hentered ((hfirst.mono said).mono opening))
        fun picking picked hpicked => ?_
      cases picked with
      | error e => trivial
      | ok team =>
          obtain rfl := team_of_runs hpicked
          refine permitted_seq (app_ids_permitted (hentered.mono picking)
            (((hfirst.mono said).mono opening).mono picking)) fun listing ids hids => ?_
          cases ids with
          | error e => trivial
          | ok ids =>
              have hlisted : Listed lib (past ++ said ++ opening ++ picking ++ listing) team.team_id
                  ids := by
                obtain ⟨sess', dict, hanswered, hread⟩ := listed_of_runs hids
                exact ⟨sess', dict, hanswered.mono fun c r _ hmem => List.mem_append_right _ hmem, hread⟩
              refine wp_seq (renew_loop_wp hsay team ids due 0 ((hentered.mono picking).mono listing)
                fun app happ hdue hwet id => ?_) ?_
              · exact .profile id ((((hwanted _ hdue).mono said).mono opening).mono picking |>.mono listing)
                  hlisted happ hwet
              · rintro (e | done) past' -
                · trivial
                · dsimp only
                  split
                  · exact wp_mono (wp_chronicle (Permitted.stays (final_check_permitted hsay _)))
                      fun _ _ _ => trivial
                  · trivial

theorem renew_on_phone_wp {raw : Str} {acc : Account} {team_id : Str}
    (hhead : (Trace.inner past).head? = some ⟨.read_account, some raw⟩)
    (hacc : ext.account raw = .ok acc ∧ acc.password ≠ [] ∧ acc.team_id = some team_id)
    (hfresh : ∀ e ∈ Trace.inner past, e.1.copies = false) :
    (renew_on_phone lib ext say acc team_id dry_run force min_days).wp
      (permitting lib ext dry_run force min_days) (fun _ _ => True) past := by
  have hcopy : (inner (Phone.phone_profiles ext) : Full _).Uses
      (Permitted lib ext dry_run force min_days past) :=
    inner_permitted (Phone.phone_profiles_uses fun _ => Cmd.noConfusion)
  refine permitted_seq hcopy fun copying read hread => ?_
  obtain ⟨copied, hcopied, hprofiles⟩ := phone_profiles_runs (runs_inner hread).1
  cases read with
  | error e => trivial
  | ok profiles =>
      obtain ⟨blobs, rfl, hparse⟩ := (hprofiles profiles).mp rfl
      have hreading (rest : Trace Resp) :
          Reading ext (Trace.inner (past ++ copying) ++ rest) team_id profiles := by
        rw [Trace.inner_append, hcopied, List.append_assoc]
        refine ⟨⟨raw, acc, by rw [List.head?_append, hhead]; rfl, hacc⟩, blobs, ?_, hparse⟩
        rw [first_copy_append hfresh]
        rfl
      refine permitted_seq (say_permitted hsay _) fun said _ _ => ?_
      by_cases hmine : of_team team_id profiles = []
      · rw [if_pos hmine]
        trivial
      rw [if_neg hmine]
      have hlook : (inner (due_loop say force min_days (latest_by_bundle (of_team team_id profiles))) :
          Full _).Uses (Permitted lib ext dry_run force min_days (past ++ copying ++ said)) :=
        inner_permitted (due_loop_uses (fun line => (hsay line).mono fun c hc blob h => by
          cases h; cases hc) (fun _ => Cmd.noConfusion) force min_days _)
      refine permitted_seq hlook fun looking due hdue => ?_
      by_cases hsome : due = []
      · rw [if_pos hsome]
        exact permitted_seq (say_permitted hsay _) fun _ _ _ => trivial
      rw [if_neg hsome]
      obtain ⟨clock, hlooked, rfl⟩ := due_loop_runs (runs_inner hdue).1 (latest_kept _).nodup
      have hhead' : (Trace.inner (past ++ copying ++ said ++ looking)).head? =
          some ⟨.read_account, some raw⟩ := by
        rw [List.append_assoc, List.append_assoc, Trace.inner_append, List.head?_append, hhead]
        rfl
      refine renew_due_wp hsay hhead' hacc.1 hsome fun bundle hbundle => ?_
      refine ⟨profiles, clock, ?_, hlooked.mono ?_, mem_due_iff.mp hbundle⟩
      · rw [List.append_assoc, Trace.inner_append]
        exact hreading _
      · rw [Trace.inner_append]
        exact List.subset_append_right _ _

theorem cmd_renew_wp (addr : Option SocketAddr) :
    (cmd_renew lib ext say addr dry_run force min_days).wp (permitting lib ext dry_run force min_days)
      (fun _ _ => True) [] := by
  have hload : (inner (Apple.load_account ext) : Full _).Uses
      (Permitted lib ext dry_run force min_days []) :=
    inner_permitted (Apple.load_account_uses fun _ => Cmd.noConfusion)
  refine permitted_seq hload fun loading loaded hloading => ?_
  obtain ⟨content, htrace, hloaded⟩ := load_account_runs (runs_inner hloading).1
  cases loaded with
  | error e => trivial
  | ok acc =>
      obtain ⟨raw, rfl, hacc, hpassword⟩ := (hloaded acc).mp rfl
      dsimp only
      cases hteam : acc.team_id with
      | none => trivial
      | some team_id =>
          refine permitted_seq (say_permitted hsay _) fun said _ hsaid => ?_
          have hopen : (inner (open_phone ext say addr) : Full _).Uses
              (Permitted lib ext dry_run force min_days ([] ++ loading ++ said)) :=
            inner_permitted (open_phone_uses (fun line => (hsay line).mono fun c hc blob h => by
              cases h; cases hc) (fun c hc blob h => by cases h; cases hc) addr)
          refine permitted_seq hopen fun searching opened hsearching => ?_
          cases opened with
          | error e => trivial
          | ok _ =>
              have hcalm : (open_phone ext say addr).Uses (·.copies = false) :=
                open_phone_uses (P := fun c => c.copies = false) (say_copies hsay)
                  (fun c h => by cases c <;> first | rfl | cases h) addr
              have hhead : (Trace.inner ([] ++ loading ++ said ++ searching)).head? =
                  some ⟨.read_account, some raw⟩ := by
                simp [Trace.inner_append, htrace]
              refine wp_seq (renew_on_phone_wp hsay hhead ⟨hacc, hpassword, hteam⟩ ?_)
                fun result past' _ => ⟨trivial, fun _ _ _ => trivial⟩
              simp only [List.nil_append, Trace.inner_append, htrace, List.forall_mem_append]
              exact ⟨⟨by simp [Cmd.copies], (say_copies hsay _).mem (runs_inner hsaid).1⟩,
                hcalm.mem (runs_inner hsearching).1⟩

-- A renewal creates and revokes nothing at Apple. It asks the services for no more than `Asks` says,
-- and what it installs is what they gave it.
theorem renewal_reads_only {addr : Option SocketAddr} {before after : Trace (Both Answer Resp)}
    {e : Prog.Event (Both Answer Resp)} {result : Except Fail Unit}
    (h : (cmd_renew lib ext say addr dry_run force min_days).Runs (before ++ e :: after) result) :
    Reads lib ext dry_run force min_days before e.1 :=
  Permitted.reads (Prog.chronicle_allows (cmd_renew_wp hsay addr) h)

end Renewal

section Sample

-- The same sample renewal, with the services asked.
def serving_outside (s : Bool × List Octets) :
    (c : Call ⊕ Cmd) → Both Answer Resp c × (Bool × List Octets)
  | .inl c => ((GrandSlam.sample_answer s.1 c).1, (GrandSlam.sample_answer s.1 c).2, s.2)
  | .inr c => ((renewing_outside s.2 c).1, s.1, (renewing_outside s.2 c).2)

def served_renewal : Trace (Both Answer Resp) × Except Fail Unit :=
  (cmd_renew sample_libs sample println none false false 3).exec serving_outside
    (true, [sample_profile])

-- The services are asked.
theorem served_request : ∃ before url body headers r after,
    (cmd_renew sample_libs sample println none false false 3).Runs
      (before ++ ⟨.inl (.send (.developer url body headers)), r⟩ :: after) served_renewal.2 := by
  have hasked : served_renewal.1.any (fun e => e.1.elim Call.asks_services fun _ => false) = true := by
    decide +kernel
  obtain ⟨before, c | c, r, after, hservices, hrun⟩ := Prog.exec_event serving_outside _ _ hasked
  · obtain ⟨url, body, headers, rfl⟩ := Call.eq_of_asks_services hservices
    exact ⟨before, url, body, headers, r, after, hrun⟩
  · cases hservices

theorem renewal_reads_only_com_a : ∃ before url body headers r after result,
    (cmd_renew sample_libs sample println none false false 3).Runs
      (before ++ ⟨.inl (.send (.developer url body headers)), r⟩ :: after) result ∧
      Asks sample_libs sample false false 3 before url body := by
  obtain ⟨before, url, body, headers, r, after, hrun⟩ := served_request
  exact ⟨before, url, body, headers, r, after, _, hrun, renewal_reads_only println_reports hrun⟩

end Sample

section Token

variable {lib : Libs} {ext : Ext} {say : Str → Act Unit}

-- Each request of a renewal to the services shows the token, and the name, that Apple gave in this run
-- to the saved account, whose password had been proved.
theorem renewal_carries_token (hsay : ∀ line, (say line).Uses (·.reports = true))
    {addr : Option SocketAddr} {dry_run force : Bool} {min_days : Int} {url : Str} {body : Dictionary}
    {headers : Headers} {r : Answer (.send (.developer url body headers))}
    {before after : Trace (Both Answer Resp)} {result : Except Fail Unit}
    (h : (cmd_renew lib ext say addr dry_run force min_days).Runs
      (before ++ ⟨.inl (.send (.developer url body headers)), r⟩ :: after) result) :
    Carries lib ext before headers :=
  (Prog.chronicle_allows (cmd_renew_wp hsay addr) h).2

theorem renewal_carries_token_com_a : ∃ before url body headers r after result,
    (cmd_renew sample_libs sample println none false false 3).Runs
      (before ++ ⟨.inl (.send (.developer url body headers)), r⟩ :: after) result ∧
      Carries sample_libs sample before headers := by
  obtain ⟨before, url, body, headers, r, after, hrun⟩ := served_request
  exact ⟨before, url, body, headers, r, after, _, hrun, renewal_carries_token println_reports hrun⟩

end Token

end AltKeeper.Developer
