import AltKeeper.Developer.Token
import AltKeeper.Terminal

-- What a sign-in at the terminal saves.
namespace AltKeeper.Terminal

open Developer (Backed DeveloperSession Lists dev_url get_struct told_in)
open Prog (Both Trace chronicle_seq inner runs_inner uses_inner)

section Choice

-- The line that shows a team.
def choice (i : Nat) (team : DeveloperTeam) : Str :=
  "  ".toList ++ (toString (i + 1)).toList ++ ": ".toList ++ name_of team ++ " (".toList ++
    team.team_id ++ ")".toList

-- The only team, or the one that was shown with the number that was typed.
def Picked (said : Trace Answer) (teams : List DeveloperTeam) (team : DeveloperTeam) : Prop :=
  teams = [team] ∨ ∃ i line, teams[i]? = some team ∧ ⟨.println (choice i team), ()⟩ ∈ said ∧
    ⟨.read_line, line⟩ ∈ said ∧ Str.parse_unsigned (2 ^ 64 - 1) (Str.trim line) = some (i + 1)

theorem Picked.mono {said said' : Trace Answer} {teams : List DeveloperTeam} {team : DeveloperTeam}
    (h : Picked said teams team) (hsub : said ⊆ said') : Picked said' teams team := by
  rcases h with h | ⟨i, line, hteam, hshown, htyped, hnumber⟩
  · exact .inl h
  · exact .inr ⟨i, line, hteam, hsub hshown, hsub htyped, hnumber⟩

theorem print_choices_shows {start : Nat} {teams : List DeveloperTeam} {trace : Trace Answer}
    (h : (print_choices start teams).Runs trace ()) {i : Nat} {team : DeveloperTeam}
    (hteam : teams[i]? = some team) : ⟨.println (choice (start + i) team), ()⟩ ∈ trace := by
  induction teams generalizing start i trace with
  | nil => cases hteam
  | cons t teams ih =>
      obtain ⟨_, rest, rfl, h⟩ := h
      cases i with
      | zero =>
          obtain rfl := Option.some.inj hteam
          exact List.mem_cons_self
      | succ i =>
          have hshown := ih h (show teams[i]? = some team from hteam)
          rw [Nat.add_right_comm] at hshown
          exact List.mem_cons_of_mem _ hshown

-- The number before zero is no number of a team.
theorem before_one_eq {teams : List DeveloperTeam} {team : DeveloperTeam} {n : Nat}
    (hlen : teams.length < 2 ^ 63) (hn : n ≤ 2 ^ 64 - 1) (h : teams[before_one n]? = some team) :
    n = before_one n + 1 := by
  have hlt := (List.getElem?_eq_some_iff.mp h).1
  unfold before_one at hlt ⊢
  omega

theorem read_digits_le {max acc n : Nat} {cs : Str} (hacc : acc ≤ max)
    (h : cs.foldlM (Str.read_digit max) acc = some n) : n ≤ max := by
  induction cs generalizing acc with
  | nil =>
      cases h
      exact hacc
  | cons c cs ih =>
      rw [List.foldlM_cons] at h
      obtain ⟨next, hnext, hrest⟩ := Option.bind_eq_some_iff.mp h
      rw [Str.read_digit] at hnext
      split_ifs at hnext with hdigit
      cases hnext
      exact ih hdigit.2 hrest

theorem parse_unsigned_le {max n : Nat} {s : Str} (h : Str.parse_unsigned max s = some n) : n ≤ max := by
  unfold Str.parse_unsigned at h
  extract_lets digits at h
  split_ifs at h
  exact read_digits_le (Nat.zero_le max) h

theorem choose_team_runs {teams : List DeveloperTeam} {team : DeveloperTeam} {trace : Trace Answer}
    (hlen : teams.length < 2 ^ 63) (h : (choose_team teams).Runs trace (.ok team)) :
    Picked trace teams team := by
  obtain ⟨_, listing, rfl, hlisting⟩ := h
  obtain ⟨shown, _, asking, rfl, hshown, hasking⟩ :=
    (Prog.runs_bind (print_choices 0 teams) _ _ _).mp hlisting
  obtain ⟨_, reading, rfl, line, ending, rfl, hending⟩ := hasking
  dsimp only [Prog.bind] at hending
  cases hparse : Str.parse_unsigned (2 ^ 64 - 1) (Str.trim line) with
  | none =>
      rw [hparse] at hending
      cases hending.2
  | some n =>
      rw [hparse] at hending
      dsimp only at hending
      cases hteam : teams[before_one n]? with
      | none =>
          rw [hteam] at hending
          cases hending.2
      | some found =>
          rw [hteam] at hending
          cases hending.2
          have hn := before_one_eq hlen (parse_unsigned_le hparse) hteam
          have hmem := print_choices_shows hshown hteam
          rw [Nat.zero_add] at hmem
          exact .inr ⟨before_one n, line, hteam, List.mem_cons_of_mem _ (List.mem_append_left _ hmem),
            List.mem_cons_of_mem _ (List.mem_append_right _ (List.mem_cons_of_mem _ List.mem_cons_self)),
            hn ▸ hparse⟩

end Choice

section Earned

variable (lib : Developer.Libs) (ext : Ext) (apple_id : Str)

def prompt : Str := "Password di ".toList ++ apple_id ++ ": ".toList

-- The account of the password that was typed at the prompt, and of a team that was picked from those
-- its session was shown; the last line that was typed tells whether it holds the password.
def Earned (past : Trace (Both GrandSlam.Answer Answer)) (acc : Account) : Prop :=
  ∃ typed teams team line,
    past.head? = some ⟨.inr (.prompt_password (prompt apple_id)), .ok typed⟩ ∧ Str.trim typed ≠ [] ∧
    Lists lib past apple_id (Str.trim typed) teams ∧ Picked (Trace.inner past) teams team ∧
    (Trace.inner past).getLast? = some ⟨.read_line, line⟩ ∧
    acc = {
      apple_id
      password := if yes ext line then Str.trim typed else []
      team_id := some team.team_id }

def Saves (past : Trace (Both GrandSlam.Answer Answer)) : GrandSlam.Call ⊕ Call → Prop
  | .inr (.save_account acc) => Earned lib ext apple_id past acc
  | _ => True

def Call.saves : Call → Bool
  | .save_account _ => true
  | _ => false

variable {lib ext apple_id}

theorem saves_of_not {c : Call} (hc : c.saves = false) (past : Trace (Both GrandSlam.Answer Answer)) :
    Saves lib ext apple_id past (.inr c) := by
  cases c with
  | save_account acc => cases hc
  | _ => trivial

end Earned

section Unsaved

theorem print_numbers_unsaved (numbers : List GrandSlam.TrustedNumber) :
    (print_numbers numbers).Uses (·.saves = false) := by
  induction numbers with
  | nil => trivial
  | cons n numbers ih => exact ⟨rfl, fun _ => ih⟩

theorem get_2fa_code_unsaved (interactive : Bool) (params : GrandSlam.TwoFactorCallbackParams) :
    (get_2fa_code interactive params).Uses (·.saves = false) := by
  have hasked : (print_numbers (params.numbers.filter fun n => some n.id ≠ params.selected_number_id) >>=
      fun _ => perform .read_line >>= fun line => return response_of params.unknown line :
      Talk GrandSlam.TwoFactorCallbackResponse).Uses (·.saves = false) :=
    (print_numbers_unsaved _).bind fun _ => ⟨rfl, fun _ => trivial⟩
  cases interactive with
  | false => trivial
  | true =>
      unfold get_2fa_code
      rw [if_neg (show ¬(!true) = true by decide)]
      dsimp only
      split_ifs <;> exact ⟨rfl, fun _ => ⟨rfl, fun _ => hasked⟩⟩

theorem print_choices_unsaved (start : Nat) (teams : List DeveloperTeam) :
    (print_choices start teams).Uses (·.saves = false) := by
  induction teams generalizing start with
  | nil => trivial
  | cons t teams ih => exact ⟨rfl, fun _ => ih (start + 1)⟩

theorem choose_team_unsaved (teams : List DeveloperTeam) :
    (choose_team teams).Uses (·.saves = false) := by
  refine ⟨rfl, fun _ => (print_choices_unsaved 0 teams).bind fun _ => ?_⟩
  refine ⟨rfl, fun _ => ⟨rfl, fun line => ?_⟩⟩
  dsimp only [Prog.bind]
  cases Str.parse_unsigned (2 ^ 64 - 1) (Str.trim line) with
  | none => trivial
  | some n =>
      dsimp only
      cases teams[before_one n]? <;> trivial

variable {lib : Developer.Libs} {ext : Ext} {id apple_id password : Str} {sess : DeveloperSession}
  {past : Trace (Both GrandSlam.Answer Answer)}

theorem open_session_uses (interactive : Bool) :
    (open_session lib interactive apple_id password).Uses fun c =>
      ∀ rest, Saves lib ext id (past ++ rest) c := by
  refine ⟨fun _ => trivial, fun prepared => ?_⟩
  cases prepared with
  | error e => trivial
  | ok _ =>
      refine GrandSlam.session_uses (fun params => ?_) (fun _ _ _ => trivial) apple_id password
      exact (get_2fa_code_unsaved interactive params).mono fun c hc rest => saves_of_not hc _

theorem pick_team_uses (wanted : Option Str) (interactive : Bool) :
    (pick_team lib sess wanted interactive).Uses fun c =>
      ∀ rest, Saves lib ext id (past ++ rest) c := by
  refine Prog.Uses.bind (Prog.uses_outer (Prog.uses_any _) fun _ _ _ => trivial) ?_
  rintro (e | _ | ⟨first, teams⟩)
  · trivial
  · trivial
  · cases wanted with
    | some team_id =>
        dsimp only
        cases (first :: teams).find? (·.team_id = team_id) <;> trivial
    | none =>
        dsimp only
        split_ifs
        · trivial
        · exact uses_inner (choose_team_unsaved _) fun c hc rest => saves_of_not hc _

end Unsaved

section Login

variable {lib : Developer.Libs} {ext : Ext} {id password : Str} {sess : DeveloperSession}
  {trace past : Trace (Both GrandSlam.Answer Answer)}

theorem open_session_backed {interactive : Bool}
    (h : (open_session lib interactive id password).Runs trace (.ok sess)) :
    Backed lib id password (told_in trace) sess := by
  obtain ⟨prepared, rest, rfl, hrest⟩ := h
  cases prepared with
  | error e => cases hrest.2
  | ok _ =>
      change (GrandSlam.signed_in lib (get_2fa_code interactive) id password >>=
        GrandSlam.finish lib).Runs rest (.ok sess) at hrest
      exact (Developer.session_backed hrest).mono fun c r _ hmem => List.mem_cons_of_mem _ hmem

-- The team of a session is one that it was shown, and that was picked.
theorem pick_team_runs {team : DeveloperTeam}
    (hvec : ∀ node teams, lib.teams node = .ok teams → teams.length < 2 ^ 63)
    (h : (pick_team lib sess none true).Runs trace (.ok team)) :
    ∃ dict teams, Developer.Answered lib (told_in trace) sess (dev_url "listTeams" (some .any)) [] dict ∧
      get_struct lib.teams dict "teams" = .ok teams ∧ Picked (Trace.inner trace) teams team := by
  obtain ⟨listing, listed, picking, rfl, hlisting, hpicking⟩ := (Prog.runs_bind _ _ _ _).mp h
  rcases listed with e | _ | ⟨first, teams⟩
  · cases hpicking.2
  · cases hpicking.2
  · obtain ⟨dict, hanswered, hstruct⟩ :=
      Developer.answered_of_outer (fun _ => Developer.list_teams_runs) hlisting
    refine ⟨dict, first :: teams,
      hanswered.mono fun c r _ => Developer.told_in_append listing picking c r, hstruct, ?_⟩
    dsimp only at hpicking
    by_cases hone : teams = []
    · rw [if_pos (.inl (by rw [hone]; rfl))] at hpicking
      cases hpicking.2
      exact .inl (by rw [hone])
    · rw [if_neg (by simp [hone])] at hpicking
      obtain ⟨node, hnode⟩ := Developer.node_of_struct hstruct
      refine (choose_team_runs (hvec node _ hnode) (runs_inner hpicking).1).mono ?_
      rw [Trace.inner_append]
      exact List.subset_append_right _ _

theorem save_login_wp {typed : Str} {teams : List DeveloperTeam} {team : DeveloperTeam}
    (hprompt : past.head? = some ⟨.inr (.prompt_password (prompt id)), .ok typed⟩)
    (htyped : Str.trim typed ≠ []) (hlists : Lists lib past id (Str.trim typed) teams)
    (hpicked : Picked (Trace.inner past) teams team) :
    (inner (save_login ext id (Str.trim typed) team) : Session _).wp
      (Prog.chronicle (Saves lib ext id)) (fun _ _ => True) past := by
  refine ⟨trivial, ?_⟩
  rintro _ _ rfl
  refine ⟨trivial, ?_⟩
  rintro _ _ rfl
  refine ⟨trivial, ?_⟩
  rintro line _ rfl
  refine ⟨⟨typed, teams, team, line, ?_, htyped, ((hlists.mono _).mono _).mono _, ?_, ?_, rfl⟩, ?_⟩
  · rw [List.append_assoc, List.append_assoc, List.head?_append, hprompt]
    rfl
  · refine hpicked.mono ?_
    rw [List.append_assoc, List.append_assoc, Trace.inner_append]
    exact List.subset_append_left _ _
  · rw [Trace.inner_append]
    exact List.getLast?_concat
  · rintro (e | _) _ -
    · trivial
    · exact ⟨trivial, fun _ _ _ => trivial⟩

variable (hvec : ∀ node teams, lib.teams node = .ok teams → teams.length < 2 ^ 63)

include hvec

theorem sign_in_wp {typed : Str}
    (hprompt : past.head? = some ⟨.inr (.prompt_password (prompt id)), .ok typed⟩)
    (htyped : Str.trim typed ≠ []) :
    (sign_in lib ext id (Str.trim typed)).wp (Prog.chronicle (Saves lib ext id)) (fun _ _ => True)
      past := by
  refine chronicle_seq (open_session_uses true) fun opening opened hopening => ?_
  cases opened with
  | error e => trivial
  | ok sess =>
      refine chronicle_seq (pick_team_uses none true) fun picking picked hpicking => ?_
      cases picked with
      | error e => trivial
      | ok team =>
          obtain ⟨dict, teams, hanswered, hstruct, hpicked⟩ := pick_team_runs hvec hpicking
          refine save_login_wp ?_ htyped ⟨sess, dict, ?_, ?_, hstruct⟩ (hpicked.mono ?_)
          · rw [List.append_assoc, List.head?_append, hprompt]
            rfl
          · exact (open_session_backed hopening).mono fun c r _ hmem =>
              List.mem_append_left _ (List.mem_append_right _ hmem)
          · exact hanswered.mono fun c r _ hmem => List.mem_append_right _ hmem
          · rw [Trace.inner_append]
            exact List.subset_append_right _ _

theorem cmd_login_wp (id : Str) :
    (cmd_login lib ext (some id)).wp (Prog.chronicle (Saves lib ext id)) (fun _ _ => True) [] := by
  refine ⟨trivial, ?_⟩
  rintro (e | typed) _ rfl
  · trivial
  · change Prog.wp (Prog.chronicle (Saves lib ext id)) (if Str.trim typed = [] then
      (return .error "password vuota".toList : Session (Except Str Unit))
      else sign_in lib ext id (Str.trim typed)) (fun _ _ => True) _
    by_cases htyped : Str.trim typed = []
    · rw [if_pos htyped]
      trivial
    · rw [if_neg htyped]
      exact sign_in_wp hvec rfl htyped

-- What `login` saves was earned: with the password that was typed, which Apple accepted, and a team
-- that its session was shown and the user picked.
theorem login_saves {acc : Account} {before after : Trace (Both GrandSlam.Answer Answer)}
    {r : Answer (.save_account acc)} {result : Except Str Unit}
    (h : (cmd_login lib ext (some id)).Runs (before ++ ⟨.inr (.save_account acc), r⟩ :: after) result) :
    Earned lib ext id before acc :=
  Prog.chronicle_allows (cmd_login_wp hvec id) h

end Login

section Sample

def sample_typing (accepted : Bool) : (c : GrandSlam.Call ⊕ Call) →
    Both GrandSlam.Answer Answer c × Bool
  | .inl c => GrandSlam.sample_answer accepted c
  | .inr (.prompt_password _) => (.ok "p".toList, accepted)
  | .inr .read_line => ("s".toList, accepted)
  | .inr .prepare_state => (.ok (), accepted)
  | .inr .read_account => (none, accepted)
  | .inr (.save_account _) => (.ok (), accepted)
  | .inr (.print _) => ((), accepted)
  | .inr (.println _) => ((), accepted)

-- Two teams, of which the second one is picked, and then the password is to be saved.
def two_teams : Developer.Libs :=
  { Developer.sample_libs with
    teams := fun _ => .ok [⟨"T".toList, none⟩, ⟨"U".toList, none⟩] }

def picking (s : Bool × Nat) : (c : GrandSlam.Call ⊕ Call) →
    Both GrandSlam.Answer Answer c × (Bool × Nat)
  | .inr .read_line => (["2".toList, "s".toList].getD s.2 [], (s.1, s.2 + 1))
  | c => ((sample_typing s.1 c).1, ((sample_typing s.1 c).2, s.2))

def typed_login : Trace (Both GrandSlam.Answer Answer) × Except Str Unit :=
  (cmd_login two_teams sample (some "a@b.c".toList)).exec picking (true, 0)

def typed_account : Account :=
  { apple_id := "a@b.c".toList, password := "p".toList, team_id := some "U".toList }

theorem login_saves_sample : ∃ before r after result,
    (cmd_login two_teams sample (some "a@b.c".toList)).Runs
      (before ++ ⟨.inr (.save_account typed_account), r⟩ :: after) result ∧
      Earned two_teams sample "a@b.c".toList before typed_account := by
  have hsaved : typed_login.1.any (fun e => e.1.elim (fun _ => false) fun c =>
      match c with | .save_account acc => acc = typed_account | _ => false) = true := by
    decide +kernel
  obtain ⟨before, c, r, after, hsaves, hrun⟩ := Prog.exec_event picking _ _ hsaved
  obtain rfl : c = .inr (.save_account typed_account) := by
    cases c with
    | inl c => cases hsaves
    | inr c =>
        cases c with
        | save_account acc => rw [of_decide_eq_true hsaves]
        | _ => cases hsaves
  have hvec : ∀ node teams, two_teams.teams node = .ok teams → teams.length < 2 ^ 63 := by
    intro node teams h
    cases h
    decide
  exact ⟨before, r, after, _, hrun, login_saves hvec hrun⟩

end Sample

end AltKeeper.Terminal
