import AltKeeper.Terminal.Login

-- What the list of the App IDs asks of Apple, and in whose name.
namespace AltKeeper.Terminal

open Developer (Backed DeveloperSession Lists dev_body dev_url get_struct list_app_ids list_teams
  send_dev_request_no_response_uses send_dev_request_uses team_body told_in told_in_append)
open GrandSlam (Dictionary Headers)
open Prog (Both Trace chronicle_seq inner outer runs_inner uses_adapt uses_inner uses_outer uses_try)

section Asks

variable (lib : Developer.Libs) (ext : Ext)

-- The account that was read, with a password.
def Loaded (past : Trace (Both GrandSlam.Answer Answer)) (acc : Account) : Prop :=
  ∃ raw, (Trace.inner past).head? = some ⟨.read_account, some raw⟩ ∧ ext.account raw = .ok acc ∧
    acc.password ≠ []

-- The team that is asked for, or else the first.
def Chosen (wanted : Option Str) (teams : List DeveloperTeam) (team : DeveloperTeam) : Prop :=
  match wanted with
  | some id => teams.find? (·.team_id = id) = some team
  | none => teams.head? = some team

-- A request that shows what the session of the account shows, for its teams, or for the App IDs of the
-- account's one of those that it was shown.
inductive Asked (past : Trace (Both GrandSlam.Answer Answer)) (acc : Account) :
    Str → Dictionary → Prop
  | teams (request_id : Str) : Asked past acc (dev_url "listTeams" (some .any)) (dev_body request_id [])
  | app_ids (request_id : Str) {teams : List DeveloperTeam} {team : DeveloperTeam}
      (lists : Lists lib past acc.apple_id acc.password teams)
      (chosen : Chosen acc.team_id teams team) :
      Asked past acc (dev_url "listAppIds" (some .ios)) (dev_body request_id (team_body team.team_id))

def Reads (past : Trace (Both GrandSlam.Answer Answer)) : GrandSlam.Call ⊕ Call → Prop
  | .inl (.send (.developer url body headers)) => ∃ acc sess anisette, Loaded ext past acc ∧
      Backed lib acc.apple_id acc.password (told_in past) sess ∧
      sess.header_map anisette = .ok headers ∧ Asked lib past acc url body
  | .inr (.save_account _) => False
  | _ => True

variable {lib ext} {past : Trace (Both GrandSlam.Answer Answer)} {acc : Account}

theorem Loaded.mono (h : Loaded ext past acc) (rest : Trace (Both GrandSlam.Answer Answer)) :
    Loaded ext (past ++ rest) acc := by
  obtain ⟨raw, hhead, hrest⟩ := h
  refine ⟨raw, ?_, hrest⟩
  rw [Trace.inner_append, List.head?_append, hhead]
  rfl

theorem Asked.mono {url : Str} {body : Dictionary} (h : Asked lib past acc url body)
    (rest : Trace (Both GrandSlam.Answer Answer)) : Asked lib (past ++ rest) acc url body := by
  cases h with
  | teams request_id => exact .teams request_id
  | app_ids request_id lists chosen => exact .app_ids request_id (lists.mono rest) chosen

theorem reads_unsaved {c : Call} (hc : c.saves = false) (past : Trace (Both GrandSlam.Answer Answer)) :
    Reads lib ext past (.inr c) := by
  cases c with
  | save_account acc => cases hc
  | _ => trivial

theorem reads_unasked {c : GrandSlam.Call} (hc : c.asks_services = false)
    (past : Trace (Both GrandSlam.Answer Answer)) : Reads lib ext past (.inl c) := by
  cases c with
  | send req =>
      cases req with
      | developer url body headers => cases hc
      | _ => trivial
  | _ => trivial

end Asks

section Apps

variable {lib : Developer.Libs} {ext : Ext} {past : Trace (Both GrandSlam.Answer Answer)}
  {acc : Account} {sess : DeveloperSession} {trace : Trace (Both GrandSlam.Answer Answer)}

theorem load_account_unsaved : (load_account ext).Uses (·.saves = false) := by
  refine ⟨rfl, fun raw => ?_⟩
  cases raw with
  | none => trivial
  | some raw =>
      dsimp only [Prog.bind]
      cases ext.account raw with
      | error e => trivial
      | ok acc =>
          dsimp only
          split_ifs <;> trivial

theorem loaded_of_runs (h : (inner (load_account ext) : Session _).Runs trace (.ok acc)) :
    Loaded ext trace acc := by
  obtain ⟨raw, rest, htrace, hrest⟩ := (runs_inner h).1
  cases raw with
  | none => cases hrest.2
  | some raw =>
      dsimp only [Prog.bind] at hrest
      cases hacc : ext.account raw with
      | error e =>
          rw [hacc] at hrest
          cases hrest.2
      | ok found =>
          rw [hacc] at hrest
          dsimp only at hrest
          by_cases hpassword : found.password = []
          · rw [if_pos hpassword] at hrest
            cases hrest.2
          · rw [if_neg hpassword] at hrest
            cases hrest.2
            exact ⟨raw, by rw [htrace]; rfl, hacc, hpassword⟩

theorem print_apps_unsaved (ids : List Developer.AppId) :
    (print_apps ext ids).Uses (·.saves = false) := by
  induction ids with
  | nil => trivial
  | cons a ids ih => exact ⟨rfl, fun _ => ih⟩

theorem open_session_reads (apple_id password : Str) :
    (open_session lib false apple_id password).Uses fun c =>
      ∀ rest, Reads lib ext (past ++ rest) c := by
  refine ⟨fun _ => trivial, fun prepared => ?_⟩
  cases prepared with
  | error e => trivial
  | ok _ =>
      refine GrandSlam.session_uses (fun params => ?_) (fun c hc rest => reads_unasked hc _) apple_id
        password
      exact (get_2fa_code_unsaved false params).mono fun c hc rest => reads_unsaved hc _

variable (hloaded : Loaded ext past acc)
  (hbacked : Backed lib acc.apple_id acc.password (told_in past) sess)

include hloaded hbacked

-- A request of the account's session is one that shows it.
theorem asks_reads {request_id : Str} {url : Str} {body : Dictionary} {anisette : GrandSlam.AnisetteData}
    {headers : Headers} (hmap : sess.header_map anisette = .ok headers)
    (hasked : Asked lib past acc url (dev_body request_id body))
    (rest : Trace (Both GrandSlam.Answer Answer)) :
    Reads lib ext (past ++ rest) (.inl (.send (.developer url (dev_body request_id body) headers))) :=
  ⟨acc, sess, anisette, hloaded.mono rest, hbacked.mono fun c r _ => told_in_append past rest c r, hmap,
    hasked.mono rest⟩

theorem pick_team_reads :
    (pick_team lib sess acc.team_id false).Uses fun c => ∀ rest, Reads lib ext (past ++ rest) c := by
  have hlist : (list_teams lib sess).run.Uses fun c => ∀ rest, Reads lib ext (past ++ rest) (.inl c) :=
    uses_adapt (send_dev_request_uses (fun _ _ => trivial) (fun _ => trivial) fun id anisette _ hmap =>
      asks_reads hloaded hbacked hmap (.teams id))
  refine Prog.Uses.bind (uses_outer hlist fun _ h => h) ?_
  rintro (e | _ | ⟨first, teams⟩)
  · trivial
  · trivial
  · cases acc.team_id with
    | none =>
        dsimp only
        rw [if_pos (.inr rfl)]
        trivial
    | some id =>
        dsimp only
        cases (first :: teams).find? (·.team_id = id) <;> trivial

omit hloaded in
theorem chosen_of_runs {team : DeveloperTeam}
    (h : (pick_team lib sess acc.team_id false).Runs trace (.ok team)) :
    ∃ teams, Lists lib (past ++ trace) acc.apple_id acc.password teams ∧
      Chosen acc.team_id teams team := by
  obtain ⟨listing, listed, picking, rfl, hlisting, hpicking⟩ := (Prog.runs_bind _ _ _ _).mp h
  rcases listed with e | _ | ⟨first, teams⟩
  · cases hpicking.2
  · cases hpicking.2
  · obtain ⟨dict, hanswered, hstruct⟩ :=
      Developer.answered_of_outer (fun _ => Developer.list_teams_runs) hlisting
    refine ⟨first :: teams, ⟨sess, dict, ?_, ?_, hstruct⟩, ?_⟩
    · exact hbacked.mono fun c r _ => told_in_append past _ c r
    · exact hanswered.mono fun c r _ hmem => List.mem_append_right _ (List.mem_append_left _ hmem)
    · cases hwanted : acc.team_id with
      | none =>
          rw [hwanted] at hpicking
          dsimp only at hpicking
          rw [if_pos (.inr rfl)] at hpicking
          cases hpicking.2
          rfl
      | some id =>
          rw [hwanted] at hpicking
          dsimp only at hpicking
          cases hfind : (first :: teams).find? (·.team_id = id) with
          | none =>
              rw [hfind] at hpicking
              cases hpicking.2
          | some found =>
              rw [hfind] at hpicking
              cases hpicking.2
              exact hfind

theorem list_app_ids_reads {teams : List DeveloperTeam} {team : DeveloperTeam}
    (hlists : Lists lib past acc.apple_id acc.password teams)
    (hchosen : Chosen acc.team_id teams team) :
    (list_app_ids lib sess team (some .ios)).run.Uses fun c =>
      ∀ rest, Reads lib ext (past ++ rest) (.inl c) := by
  refine uses_try (uses_adapt (send_dev_request_no_response_uses (fun _ _ => trivial) (fun _ => trivial)
    fun id anisette _ hmap => asks_reads hloaded hbacked hmap (.app_ids id hlists hchosen)))
    fun dict => ?_
  cases lib.app_ids dict <;> trivial

omit hbacked in
theorem show_apps_wp :
    (show_apps lib ext acc).wp (Prog.chronicle (Reads lib ext)) (fun _ _ => True) past := by
  refine chronicle_seq (open_session_reads _ _) fun opening session hopening => ?_
  cases session with
  | error e => trivial
  | ok sess =>
      have hbacked : Backed lib acc.apple_id acc.password (told_in (past ++ opening)) sess :=
        (open_session_backed hopening).mono fun c r _ hmem => List.mem_append_right _ hmem
      have hopened := hloaded.mono opening
      refine chronicle_seq (pick_team_reads hopened hbacked) fun picking picked hpicking => ?_
      cases picked with
      | error e => trivial
      | ok team =>
          obtain ⟨teams, hlists, hchosen⟩ := chosen_of_runs hbacked hpicking
          have hkept : Backed lib acc.apple_id acc.password (told_in (past ++ opening ++ picking))
              sess :=
            hbacked.mono fun c r _ => told_in_append _ picking c r
          refine chronicle_seq (uses_outer (list_app_ids_reads (hopened.mono picking) hkept hlists
            hchosen) fun _ h => h) fun listing ids _ => ?_
          cases ids with
          | error e => trivial
          | ok ids =>
              have hprinted : (inner (print_apps ext ids) : Session Unit).Uses fun c =>
                  ∀ past, Reads lib ext past c :=
                uses_inner (print_apps_unsaved ids) fun c hc => reads_unsaved hc
              refine chronicle_seq (p := inner (perform _)) ⟨fun _ => trivial, fun _ => trivial⟩
                fun said _ _ => ?_
              exact chronicle_seq (hprinted.mono fun c h rest => h _) fun _ _ _ => trivial

end Apps

section Listing

variable {lib : Developer.Libs} {ext : Ext}

theorem cmd_apps_wp :
    (cmd_apps lib ext).wp (Prog.chronicle (Reads lib ext)) (fun _ _ => True) [] := by
  refine chronicle_seq (uses_inner load_account_unsaved fun c hc rest => reads_unsaved hc _)
    fun loading loaded hloading => ?_
  cases loaded with
  | error e => trivial
  | ok acc => exact show_apps_wp (loaded_of_runs hloading)

-- `apps` saves nothing, and asks the services only for the teams of the saved account and the App IDs
-- of its team, with the token of a session that the saved password opened in this run.
theorem apps_read_only {before after : Trace (Both GrandSlam.Answer Answer)}
    {e : Prog.Event (Both GrandSlam.Answer Answer)} {result : Except Str Unit}
    (h : (cmd_apps lib ext).Runs (before ++ e :: after) result) : Reads lib ext before e.1 :=
  Prog.chronicle_allows cmd_apps_wp h

-- The account is on the disk.
def listing_outside (accepted : Bool) :
    (c : GrandSlam.Call ⊕ Call) → Both GrandSlam.Answer Answer c × Bool
  | .inr .read_account => (some account_text, accepted)
  | c => sample_typing accepted c

def sample_listing : Trace (Both GrandSlam.Answer Answer) × Except Str Unit :=
  (cmd_apps Developer.sample_libs sample).exec listing_outside true

theorem apps_read_only_sample : ∃ before url body headers r after result,
    (cmd_apps Developer.sample_libs sample).Runs
      (before ++ ⟨.inl (.send (.developer url body headers)), r⟩ :: after) result ∧
      ∃ acc, Loaded sample before acc ∧ Asked Developer.sample_libs before acc url body := by
  have hasked : sample_listing.1.any
      (fun e => e.1.elim GrandSlam.Call.asks_services fun _ => false) = true := by decide +kernel
  obtain ⟨before, c | c, r, after, hservices, hrun⟩ := Prog.exec_event listing_outside _ _ hasked
  · obtain ⟨url, body, headers, rfl⟩ := GrandSlam.Call.eq_of_asks_services hservices
    obtain ⟨acc, sess, anisette, hloaded, -, -, hrequest⟩ := apps_read_only hrun
    exact ⟨before, url, body, headers, r, after, _, hrun, acc, hloaded, hrequest⟩
  · cases hservices

end Listing

end AltKeeper.Terminal
