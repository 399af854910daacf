import AltKeeper.Developer
import AltKeeper.GrandSlam.Calls
import AltKeeper.GrandSlam.Codes
import AltKeeper.Web.Calls

-- The sessions that the program opens with Apple, with every call of theirs; and how the program's
-- own model, in which a sign-in is three commands, stands for them.
namespace AltKeeper.GrandSlam

open Developer (DeveloperSession from_account from_account_uses list_teams)
open Prog (Both RefinesBy inner outer refines_inner)

-- Calls of a session and commands of the program.
abbrev Full := Prog (Both Answer Resp)

section Sessions

-- Where the page's user is asked for a code, and for how long.
def wait_code (last_error : Option Str) : Act (Option TfaAnswer) := do
  ask (.store_last_error last_error)
  let rx ← ask .publish_sender
  ask (.store_asking true)
  let answer ← ask (.wait_answer rx)
  ask (.store_asking false)
  let _ ← ask .take_sender
  return answer

def response_to : Option TfaAnswer → TwoFactorCallbackResponse
  | some (.code code) => .submit_code code
  | some .resend => .resend_code
  | none => .abort

-- The callback of a sign-in from the page.
def page_code (params : TwoFactorCallbackParams) : Act TwoFactorCallbackResponse := do
  return response_to (← wait_code params.last_error)

-- The callback of a sign-in without a terminal.
def no_code (_ : TwoFactorCallbackParams) : Act TwoFactorCallbackResponse := return .submit_code []

section Callback

variable {C : Type} {R : C → Type}

def tell (c : Call) : Prog (Both Answer R) (Answer c) := .call (.inl c) .ret

-- A call of the sign-in is made as it is, but for the callback.
def carry (callback : TwoFactorCallbackParams → Prog R TwoFactorCallbackResponse) :
    (c : Call) → Prog (Both Answer R) (Answer c)
  | .two_factor_callback params => inner (callback params) >>= fun response => return .ok response
  | c => tell c

variable (lib : Developer.Libs) (callback : TwoFactorCallbackParams → Prog R TwoFactorCallbackResponse)

def signed_in (apple_id password : Str) : Prog (Both Answer R) (Except Report AppleAccount) :=
  (login lib.grandslam apple_id password).run.expand (carry callback)

-- The developer session of an account that is signed in.
def finish : Except Report AppleAccount → Prog (Both Answer R) (Except Str DeveloperSession)
  | .error e => return .error (Apple.login_failed (lib.grandslam.display e))
  | .ok acct => do
      match ← outer (from_account lib acct).run with
      | .error e => return .error (Apple.session_failed (lib.grandslam.display e))
      | .ok sess => return .ok sess

end Callback

variable (lib : Developer.Libs) (callback : TwoFactorCallbackParams → Act TwoFactorCallbackResponse)

def open_session (apple_id password : Str) : Full (Except Str DeveloperSession) := do
  match ← inner (ask .prepare_state) with
  | .error e => return .error e
  | .ok () => signed_in lib callback apple_id password >>= finish lib

-- Without a terminal: the team asked for, or the first one.
def pick_team (sess : DeveloperSession) (wanted : Option Str) : Full (Except Str DeveloperTeam) := do
  match ← outer (list_teams lib sess).run with
  | .error e => return .error (lib.grandslam.display e)
  | .ok [] => return .error "nessun team sviluppatore su questo Apple ID".toList
  | .ok (first :: teams) =>
      match wanted with
      | none => return .ok first
      | some id =>
          match (first :: teams).find? (·.team_id = id) with
          | none =>
              return .error ("il team ".toList ++ id ++ " non esiste su questo Apple ID".toList)
          | some team => return .ok team

variable (ext : Ext)

-- What a sign-in from the page does with its session.
def after_session (apple_id password : Str) (save : Bool) :
    Except Str DeveloperSession → Full (Except Str Str)
  | .error e => return .error e
  | .ok sess => do
      match ← pick_team lib sess none with
      | .error e => return .error e
      | .ok team =>
          let password := if save then password else []
          match ← inner (ask (.save_account { apple_id, password, team_id := some team.team_id })) with
          | .error e => return .error e
          | .ok () => return .ok (team.name.getD team.team_id)

def run_login (apple_id password : Str) (save : Bool) : Full (Option Unit) := do
  let session ← open_session lib page_code apple_id password
  let outcome ← after_session lib apple_id password save session
  inner (ask (.write_inner fun g => { g with
    login := Web.signed_in ext save outcome
    snapshot := { g.snapshot with checked_at := none } }))
  return some ()

end Sessions

section Sample

-- On the page the same code is typed whenever one is asked for.
def sample_outside (accepted : Bool) : (c : Call ⊕ Cmd) → Both Answer Resp c × Bool
  | .inl c => sample_answer accepted c
  | .inr .prepare_state => (.ok (), accepted)
  | .inr (.wait_answer _) => (some (.code "111111".toList), accepted)
  | .inr c => (silent c, accepted)

def sample_session (callback : TwoFactorCallbackParams → Act TwoFactorCallbackResponse) :
    Prog.Trace (Both Answer Resp) × Except Str DeveloperSession :=
  (open_session Developer.sample_libs callback "a@b.c".toList "p".toList).exec sample_outside false

theorem sample_session_runs (callback : TwoFactorCallbackParams → Act TwoFactorCallbackResponse) :
    (open_session Developer.sample_libs callback "a@b.c".toList "p".toList).Runs
      (sample_session callback).1 (sample_session callback).2 :=
  Prog.runs_exec _ _ _

end Sample

section Uses

def Call.asks_services : Call → Bool
  | .send (.developer _ _ _) => true
  | _ => false

theorem Call.eq_of_asks_services {c : Call} (h : c.asks_services = true) :
    ∃ url body headers, c = .send (.developer url body headers) := by
  cases c with
  | send req =>
      cases req with
      | developer url body headers => exact ⟨url, body, headers, rfl⟩
      | _ => cases h
  | _ => cases h

variable {lib : Developer.Libs}

section Callback

variable {C : Type} {R : C → Type} {callback : TwoFactorCallbackParams → Prog R TwoFactorCallbackResponse}
  {Q : Call ⊕ C → Prop} (hcallback : ∀ params, (callback params).Uses fun c => Q (.inr c))
  (hcalls : ∀ c : Call, c.asks_services = false → Q (.inl c))

include hcallback hcalls

-- An account is signed in, and its session made, without the services.
theorem session_uses (apple_id password : Str) :
    (signed_in lib callback apple_id password >>= finish lib).Uses Q := by
  have hcarry : ∀ c : Call, c.asks_services = false → (carry callback c).Uses Q := by
    intro c hc
    cases c with
    | two_factor_callback params =>
        exact (Prog.uses_inner (hcallback params) fun _ h => h).bind fun _ => trivial
    | _ => exact ⟨hcalls _ hc, fun _ => trivial⟩
  have hlogin : (login lib.grandslam apple_id password).run.Uses (·.asks_services = false) :=
    login_uses (fun c hc => by
      cases c with
      | send req => cases req <;> first | rfl | cases hc
      | _ => rfl) (fun _ => rfl) apple_id password
  refine Prog.Uses.bind (Prog.uses_expand hlogin hcarry) ?_
  rintro (e | acct)
  · trivial
  · have hopen : (from_account lib acct).run.Uses (·.asks_services = false) :=
      from_account_uses (fun _ => rfl) fun _ _ _ _ _ _ _ => rfl
    refine Prog.Uses.bind (Prog.uses_outer hopen hcalls) ?_
    rintro (e | sess) <;> trivial

end Callback

variable {callback : TwoFactorCallbackParams → Act TwoFactorCallbackResponse} {Q : Call ⊕ Cmd → Prop}

theorem open_session_uses (hprepare : Q (.inr .prepare_state))
    (hcallback : ∀ params, (callback params).Uses fun c => Q (.inr c))
    (hcalls : ∀ c : Call, c.asks_services = false → Q (.inl c)) (apple_id password : Str) :
    (open_session lib callback apple_id password).Uses Q := by
  refine .perform_bind hprepare fun prepared => ?_
  cases prepared with
  | error e => trivial
  | ok _ => exact session_uses hcallback hcalls apple_id password

end Uses

section Refinement

-- The commands that stand for a session with Apple.
def apple_step : Cmd → Bool
  | .begin_login _ _ => true
  | .answer_login _ => true
  | .end_login => true
  | .developer_session => true
  | .list_teams => true
  | .list_app_ids _ => true
  | .download_profile _ _ => true
  | _ => false

-- A session in which each request of the sign-in for a code is met by `reply`.
def replies (reply : Option Str → Act Unit) : List (Option Str) → Act Unit
  | [] => return ()
  | last_error :: asked => do
      reply last_error
      replies reply asked

def session_with (reply : Option Str → Act Unit) (apple_id password : Str) :
    Act (Except Str Unit) := do
  match ← ask .prepare_state with
  | .error e => return .error e
  | .ok () =>
      let asked ← ask (.begin_login apple_id password)
      replies reply asked
      Apple.finish_login

theorem ask_codes_eq (asked : List (Option Str)) : replies Web.ask_code asked = Web.ask_codes asked := by
  induction asked with
  | nil => rfl
  | cons last_error asked ih => exact congrArg (Web.ask_code last_error >>= ·) (funext fun _ => ih)

theorem answer_nothing_eq (asked : List (Option Str)) :
    replies (fun _ => ask (.answer_login (some (.code [])))) asked = Apple.answer_nothing asked := by
  induction asked with
  | nil => rfl
  | cons last_error asked ih =>
      exact congrArg (ask (.answer_login (some (.code []))) >>= ·) (funext fun _ => ih)

theorem open_session_web_eq (apple_id password : Str) :
    Web.open_session_web apple_id password = session_with Web.ask_code apple_id password := by
  simp only [session_with, ask_codes_eq]
  rfl

theorem open_session_eq (apple_id password : Str) : Apple.open_session apple_id password =
    session_with (fun _ => ask (.answer_login (some (.code [])))) apple_id password := by
  simp only [session_with, answer_nothing_eq]
  rfl

-- The requests for a code in a sign-in, each with the error it shows.
def requests (calls : Prog.Trace Answer) : List (Option Str) :=
  calls.filterMap fun e => match e.1 with
    | .two_factor_callback params => some params.last_error
    | _ => none

variable {lib : Developer.Libs}
  {callback : TwoFactorCallbackParams → Act TwoFactorCallbackResponse} {reply : Option Str → Act Unit}

theorem carry_of_not_asks {C : Type} {R : C → Type}
    {callback : TwoFactorCallbackParams → Prog R TwoFactorCallbackResponse} {c : Call}
    (h : c.asks = false) : carry callback c = tell c := by
  cases c <;> first | rfl | cases h

theorem runs_carry {C : Type} {R : C → Type}
    {callback : TwoFactorCallbackParams → Prog R TwoFactorCallbackResponse} {c : Call}
    (h : c.asks = false) {trace : Prog.Trace (Both Answer R)} {r : Answer c}
    (hruns : (carry callback c).Runs trace r) : trace = [⟨.inl c, r⟩] := by
  rw [carry_of_not_asks h] at hruns
  obtain ⟨r', rest, rfl, rfl, rfl⟩ := hruns
  rfl

theorem runs_carry_asked {params : TwoFactorCallbackParams} {trace : Prog.Trace (Both Answer Resp)}
    {r : Except Report TwoFactorCallbackResponse}
    (h : (carry callback (.two_factor_callback params)).Runs trace r) :
    ∃ response, r = .ok response ∧ (callback params).Runs (Prog.Trace.inner trace) response ∧
      ∀ e ∈ trace, e.1.isRight := by
  obtain ⟨first, response, rest, rfl, hfirst, rfl, rfl⟩ :=
    (Prog.runs_bind (inner (callback params) : Full TwoFactorCallbackResponse)
      (fun response => (return .ok response : Full (Except Report TwoFactorCallbackResponse)))
      trace r).mp h
  rw [List.append_nil]
  exact ⟨response, rfl, Prog.runs_inner hfirst⟩

-- The callback, met by a reply.
def Met (callback : TwoFactorCallbackParams → Act TwoFactorCallbackResponse)
    (reply : Option Str → Act Unit) : Prop :=
  ∀ params trace response, (callback params).Runs trace response →
    ∃ coarse, (reply params.last_error).Runs coarse () ∧
      coarse.shown apple_step = trace.shown apple_step

theorem Met.page : Met page_code Web.ask_code := by
  intro params trace response h
  obtain ⟨first, answer, rest, rfl, hfirst, rfl, rfl⟩ :=
    (Prog.runs_bind (wait_code params.last_error) _ trace response).mp h
  refine ⟨first ++ [⟨.answer_login answer, ()⟩], ?_, ?_⟩
  · exact (Prog.runs_bind (wait_code params.last_error) (fun answer => ask (.answer_login answer))
      _ ()).mpr ⟨first, answer, _, rfl, hfirst, (), [], rfl, rfl, rfl⟩
  · rw [List.append_nil, Prog.Trace.shown, List.filter_append]
    exact List.append_nil _

theorem Met.nobody : Met no_code fun _ => ask (.answer_login (some (.code []))) := by
  rintro params trace response ⟨rfl, rfl⟩
  exact ⟨[⟨.answer_login (some (.code [])), ()⟩], ⟨(), [], rfl, rfl, rfl⟩, rfl⟩

-- The calls of a sign-in show what the replies to its requests do.
theorem Met.replies (hmet : Met callback reply) {calls : Prog.Trace Answer}
    {trace : Prog.Trace (Both Answer Resp)} (h : Prog.Carried (carry callback) calls trace) :
    ∃ coarse, (replies reply (requests calls)).Runs coarse () ∧
      coarse.shown apple_step = (Prog.Trace.inner trace).shown apple_step := by
  induction calls generalizing trace with
  | nil =>
      obtain rfl := h
      exact ⟨[], ⟨rfl, rfl⟩, rfl⟩
  | cons e calls ih =>
      obtain ⟨c, r⟩ := e
      obtain ⟨first, rest, rfl, hfirst, hrest⟩ := h
      obtain ⟨coarse, hcoarse, hshown⟩ := ih hrest
      cases hasks : c.asks with
      | false =>
          obtain rfl := runs_carry hasks hfirst
          have hsame : requests (⟨c, r⟩ :: calls) = requests calls := by
            cases c <;> first | rfl | cases hasks
          rw [hsame]
          exact ⟨coarse, hcoarse, hshown⟩
      | true =>
          cases c with
          | two_factor_callback params =>
              obtain ⟨response, -, hresponse, -⟩ := runs_carry_asked hfirst
              obtain ⟨coarse', hcoarse', hshown'⟩ := hmet params _ response hresponse
              refine ⟨coarse' ++ coarse, (Prog.runs_bind (reply params.last_error) _ _ ()).mpr
                ⟨coarse', (), coarse, rfl, hcoarse', hcoarse⟩, ?_⟩
              rw [Prog.Trace.inner_append, Prog.Trace.shown, Prog.Trace.shown, List.filter_append,
                List.filter_append]
              exact congrArg₂ (· ++ ·) hshown' hshown
          | _ => cases hasks

-- The session that was opened is left out of what the program's model knows of it.
def Opened (session : Except Str DeveloperSession) (opened : Except Str Unit) : Prop :=
  session.map (fun _ => ()) = opened

-- A sign-in that is ended stands for its last commands.
theorem finish_refines (signed : Except Report AppleAccount) :
    RefinesBy apple_step Opened (finish lib signed) Apple.finish_login := by
  have hend : ∀ (ended : Except Str Unit) {p : Full (Except Str DeveloperSession)}
      {q : Act (Except Str Unit)}, (∀ coarse result, q.Runs coarse result →
        Apple.finish_login.Runs (⟨.end_login, ended⟩ :: coarse) result) →
      RefinesBy apple_step Opened p q → RefinesBy apple_step Opened p Apple.finish_login := by
    intro ended p q hq hp trace result h
    obtain ⟨coarse, opened, hcoarse, hopened, hshown⟩ := hp trace result h
    exact ⟨⟨.end_login, ended⟩ :: coarse, opened, hq coarse opened hcoarse, hopened, hshown⟩
  cases signed with
  | error e =>
      exact hend (.error (lib.grandslam.display e)) (fun coarse result h => ⟨_, _, rfl, h⟩)
        (Prog.refines_ret rfl)
  | ok acct =>
      refine hend (.ok ()) (fun coarse result h => ⟨_, _, rfl, h⟩) ?_
      refine (Prog.refines_hidden (c := Cmd.developer_session) rfl (from_account lib acct).run fun sess =>
        (sess.mapError lib.grandslam.display).map fun _ => ()).bind ?_
      rintro (e | sess) _ rfl <;> exact Prog.refines_ret rfl

theorem signed_in_refines (hmet : Met callback reply) (apple_id password : Str) :
    RefinesBy apple_step Opened (signed_in lib callback apple_id password >>= finish lib) (do
      let asked ← ask (.begin_login apple_id password)
      replies reply asked
      Apple.finish_login) := by
  intro trace result h
  obtain ⟨signing, signed, rest, rfl, hsigning, hrest⟩ := (Prog.runs_bind _ _ _ _).mp h
  obtain ⟨calls, -, hcarried⟩ := (Prog.runs_expand _ _ _).mp hsigning
  obtain ⟨coarse, hcoarse, hshown⟩ := hmet.replies hcarried
  obtain ⟨coarse', opened, hcoarse', hopened, hshown'⟩ := finish_refines signed rest result hrest
  refine ⟨⟨.begin_login apple_id password, requests calls⟩ :: (coarse ++ coarse'), opened,
    ⟨requests calls, _, rfl, ?_⟩, hopened, ?_⟩
  · exact (Prog.runs_bind (replies reply (requests calls)) _ _ opened).mpr
      ⟨coarse, (), coarse', rfl, hcoarse, hcoarse'⟩
  · rw [Prog.Trace.inner_append, Prog.Trace.shown, Prog.Trace.shown, List.filter_append,
      List.filter_cons_of_neg (by simp [apple_step]), List.filter_append]
    exact congrArg₂ (· ++ ·) hshown hshown'

theorem open_session_refines (hmet : Met callback reply) (apple_id password : Str) :
    RefinesBy apple_step Opened (open_session lib callback apple_id password)
      (session_with reply apple_id password) := by
  refine (refines_inner (ask .prepare_state)).bind fun prepared => ?_
  cases prepared with
  | error e => exact Prog.refines_ret rfl
  | ok _ => exact signed_in_refines hmet apple_id password

theorem pick_team_refines (sess : DeveloperSession) (wanted : Option Str) :
    Prog.Refines apple_step (pick_team lib sess wanted) (Apple.pick_team wanted) := by
  refine (Prog.refines_hidden (c := Cmd.list_teams) rfl (list_teams lib sess).run fun teams =>
    teams.mapError lib.grandslam.display).bind ?_
  rintro (e | teams) _ rfl
  · exact Prog.refines_ret rfl
  cases teams with
  | nil => exact Prog.refines_ret rfl
  | cons first teams =>
      cases wanted with
      | none => exact Prog.refines_ret rfl
      | some id =>
          dsimp only [Except.mapError]
          cases (first :: teams).find? (·.team_id = id) <;> exact Prog.refines_ret rfl

theorem after_session_refines (apple_id password : Str) (save : Bool)
    {session : Except Str DeveloperSession} {opened : Except Str Unit} (h : Opened session opened) :
    Prog.Refines apple_step (after_session lib apple_id password save session)
      (Web.after_session apple_id password save opened) := by
  obtain rfl := h
  cases session with
  | error e => exact Prog.refines_ret rfl
  | ok sess =>
      refine (pick_team_refines sess none).bind fun picked => ?_
      cases picked with
      | error e => exact Prog.refines_ret rfl
      | ok team =>
          refine (refines_inner (ask (.save_account _))).bind fun saved => ?_
          cases saved <;> exact Prog.refines_ret rfl

-- Whatever a sign-in from the page does apart from its calls to Apple, the page's model does.
theorem run_login_refines (ext : Ext) (apple_id password : Str) (save : Bool) :
    Prog.Refines apple_step (run_login lib ext apple_id password save)
      (Web.run_login ext apple_id password save) := by
  rw [Web.run_login, Web.sign_in_eq, open_session_web_eq, bind_assoc]
  refine (open_session_refines Met.page apple_id password).bind fun session opened h => ?_
  refine (after_session_refines apple_id password save h).bind fun outcome => ?_
  exact (refines_inner (ask (.write_inner _))).bind fun _ => Prog.refines_ret rfl

-- So does the renewal's own sign-in.
theorem renewal_session_refines (apple_id password : Str) :
    RefinesBy apple_step Opened (open_session lib no_code apple_id password)
      (Apple.open_session apple_id password) := by
  rw [open_session_eq]
  exact open_session_refines Met.nobody apple_id password

end Refinement

section Codes

-- The code that an event sends to Apple, and whether it waits for one from the page.
def code_sent : Call ⊕ Cmd → Option (Way × Str)
  | .inl c => c.code
  | .inr _ => none

def waits : Call ⊕ Cmd → Bool
  | .inr (.wait_answer _) => true
  | _ => false

variable {lib : Developer.Libs}
  {callback : TwoFactorCallbackParams → Act TwoFactorCallbackResponse}

theorem code_sent_call {e : Prog.Event (Both Answer Resp)} {way : Way} {code : Str}
    (h : code_sent e.1 = some (way, code)) : ∃ c r, e = ⟨.inl c, r⟩ ∧ c.code = some (way, code) := by
  obtain ⟨c | c, r⟩ := e
  · exact ⟨c, r, rfl, h⟩
  · cases h

-- The session of an account is opened without a code.
theorem finish_quiet {signed : Except Report AppleAccount} {trace : Prog.Trace (Both Answer Resp)}
    {result : Except Str DeveloperSession} (h : (finish lib signed).Runs trace result) :
    ∀ e ∈ trace, waits e.1 = false ∧ code_sent e.1 = none := by
  have hopen : (finish lib signed : Full _).Uses fun c => waits c = false ∧ code_sent c = none := by
    cases signed with
    | error e => trivial
    | ok acct =>
        have hcall : (from_account lib acct).run.Uses fun c => c.code = none :=
          from_account_uses (fun _ => rfl) fun _ _ _ _ _ _ _ => rfl
        refine Prog.Uses.bind (Prog.uses_outer hcall fun c hc => ⟨rfl, hc⟩) ?_
        rintro (e | sess) <;> trivial
  exact hopen.mem h

-- A code that a session sends is sent by its sign-in.
theorem call_of_session {apple_id password : Str} {before after : Prog.Trace (Both Answer Resp)}
    {c : Call} {r : Answer c} {result : Except Str DeveloperSession}
    (h : (open_session lib callback apple_id password).Runs (before ++ ⟨.inl c, r⟩ :: after) result)
    (hcode : c.code.isSome) :
    ∃ prepared calls later signed first,
      before = ⟨.inr .prepare_state, prepared⟩ :: first ∧
      (login lib.grandslam apple_id password).run.Runs (calls ++ ⟨c, r⟩ :: later) signed ∧
      Prog.Carried (carry callback) calls first := by
  obtain ⟨prepared, rest, hsplit, h⟩ := h
  cases before with
  | nil => cases (List.cons.inj hsplit).1
  | cons e before =>
      obtain ⟨rfl, rfl⟩ := List.cons.inj hsplit
      cases prepared with
      | error e => exact absurd h.1 (by simp)
      | ok _ =>
          change (signed_in lib callback apple_id password >>= finish lib).Runs _ result at h
          obtain ⟨signed, mid, rest, rfl, hsigned, -⟩ := Prog.runs_bind_within h
            fun signed rest hrest he => by
              have hnone : c.code = none := (finish_quiet hrest _ he).2
              rw [hnone] at hcode
              cases hcode
          obtain ⟨calls, hcalls, hcarried⟩ := (Prog.runs_expand _ _ _).mp hsigned
          obtain ⟨earlier, c', r', later, first, mid, mid', rest, rfl, rfl, rfl, hearlier, hmid, -⟩ :=
            hcarried.find
          cases hasks' : c'.asks with
          | true =>
              cases c' with
              | two_factor_callback params =>
                  obtain ⟨-, -, -, hinner⟩ := runs_carry_asked hmid
                  exact nomatch hinner ⟨.inl c, r⟩ (by simp)
              | _ => cases hasks'
          | false =>
              have hone := runs_carry hasks' hmid
              cases mid with
              | nil =>
                  cases hone
                  rw [List.append_nil]
                  exact ⟨_, earlier, later, signed, first, rfl, hcalls, hearlier⟩
              | cons e mid => simp at hone

theorem carried_quiet {calls : Prog.Trace Answer} {trace : Prog.Trace (Both Answer Resp)}
    (h : Prog.Carried (carry callback) calls trace)
    (hquiet : ∀ e ∈ calls, e.1.asks = false ∧ e.1.code = none) :
    ∀ e ∈ trace, waits e.1 = false ∧ code_sent e.1 = none := by
  induction calls generalizing trace with
  | nil =>
      obtain rfl := h
      exact List.forall_mem_nil _
  | cons e calls ih =>
      obtain ⟨first, rest, rfl, hfirst, hrest⟩ := h
      obtain ⟨⟨hasks, hcode⟩, hcalls⟩ := List.forall_mem_cons.mp hquiet
      obtain rfl := runs_carry hasks hfirst
      exact List.forall_mem_cons.mpr ⟨⟨rfl, hcode⟩, ih hrest hcalls⟩

-- A code that a session sends to Apple was the answer to the last request for one.
theorem code_of_session {apple_id password : Str} {before after : Prog.Trace (Both Answer Resp)}
    {e : Prog.Event (Both Answer Resp)} {result : Except Str DeveloperSession}
    (h : (open_session lib callback apple_id password).Runs (before ++ e :: after) result)
    {way : Way} {code : Str} (hcode : code_sent e.1 = some (way, code)) :
    ∃ params first mid rest, before = first ++ mid ++ rest ∧
      (carry callback (.two_factor_callback params)).Runs mid (.ok (.submit_code code)) ∧
      params.way = some way ∧ ∀ e ∈ rest, waits e.1 = false ∧ code_sent e.1 = none := by
  obtain ⟨c, r, rfl, hsent⟩ := code_sent_call hcode
  obtain ⟨prepared, calls, later, signed, first, rfl, hlogin, hcarried⟩ := call_of_session h (by simp [hsent])
  obtain ⟨asked, params, rest, rfl, hway, hrest⟩ :=
    given_last (given_of_code (login_conducted hlogin) hsent)
  obtain ⟨first, mid, last, rfl, -, hmid, hlast⟩ := hcarried.split
  exact ⟨params, ⟨.inr .prepare_state, prepared⟩ :: first, mid, last, by simp, hmid, hway,
    carried_quiet hlast hrest⟩

-- A code that a sign-in from the page sends to Apple was typed there, since Apple last asked for
-- one, and is sent once.
theorem code_typed {apple_id password : Str} {before after : Prog.Trace (Both Answer Resp)}
    {e : Prog.Event (Both Answer Resp)} {result : Except Str DeveloperSession}
    (h : (open_session lib page_code apple_id password).Runs (before ++ e :: after) result)
    {way : Way} {code : Str} (hcode : code_sent e.1 = some (way, code)) :
    ∃ first rx rest, before = first ++ ⟨.inr (.wait_answer rx), some (.code code)⟩ :: rest ∧
      ∀ e ∈ rest, waits e.1 = false ∧ code_sent e.1 = none := by
  obtain ⟨params, first, mid, rest, rfl, hmid, -, hrest⟩ := code_of_session h hcode
  obtain ⟨shown, _, rfl, rx, _, rfl, begun, _, rfl, answer, _, rfl, ended, _, rfl, tx, _, rfl, rfl,
    hanswer⟩ := hmid
  have htyped : answer = some (.code code) := by
    cases answer with
    | none => cases hanswer
    | some answer => cases answer <;> cases hanswer; rfl
  subst htyped
  refine ⟨first ++ [⟨.inr (.store_last_error params.last_error), shown⟩, ⟨.inr .publish_sender, rx⟩,
    ⟨.inr (.store_asking true), begun⟩], rx,
    [⟨.inr (.store_asking false), ended⟩, ⟨.inr .take_sender, tx⟩] ++ rest, by simp, ?_⟩
  exact List.forall_mem_append.mpr ⟨by simp [waits, code_sent], hrest⟩

theorem code_typed_again : ∃ before e after result,
    (open_session Developer.sample_libs page_code "a@b.c".toList "p".toList).Runs (before ++ e :: after) result ∧
    code_sent e.1 = some (.devices, "111111".toList) ∧ ∃ first rx rest,
      before = first ++ ⟨.inr (.wait_answer rx), some (.code "111111".toList)⟩ :: rest ∧
      ∀ e ∈ rest, waits e.1 = false ∧ code_sent e.1 = none := by
  have hsent : ∃ e ∈ (sample_session page_code).1,
      code_sent e.1 = some (.devices, "111111".toList) := by decide +kernel
  obtain ⟨e, he, hcode⟩ := hsent
  obtain ⟨before, after, hsplit⟩ := List.append_of_mem he
  have hruns := sample_session_runs page_code
  rw [hsplit] at hruns
  exact ⟨before, e, after, _, hruns, hcode, code_typed hruns hcode⟩

theorem code_sent_inner {e : Prog.Event (Both Answer Resp)} (h : e.1.isRight) :
    code_sent e.1 = none := by
  obtain ⟨c | c, r⟩ := e
  · cases h
  · rfl

theorem countP_silent {trace : Prog.Trace (Both Answer Resp)}
    (h : ∀ e ∈ trace, code_sent e.1 = none) :
    trace.countP (fun e => (code_sent e.1).isSome) = 0 :=
  List.countP_eq_zero.mpr fun e he => by simp [h e he]

theorem countP_carried {calls : Prog.Trace Answer} {trace : Prog.Trace (Both Answer Resp)}
    (h : Prog.Carried (carry callback) calls trace) :
    trace.countP (fun e => (code_sent e.1).isSome) = calls.countP (·.1.code.isSome) := by
  induction calls generalizing trace with
  | nil =>
      obtain rfl := h
      rfl
  | cons e calls ih =>
      obtain ⟨c, r⟩ := e
      obtain ⟨first, rest, rfl, hfirst, hrest⟩ := h
      rw [List.countP_append, List.countP_cons, ih hrest, Nat.add_comm]
      congr 1
      cases hasks : c.asks with
      | false =>
          obtain rfl := runs_carry hasks hfirst
          exact List.countP_singleton
      | true =>
          cases c with
          | two_factor_callback params =>
              obtain ⟨-, -, -, hinner⟩ := runs_carry_asked hfirst
              exact countP_silent fun e he => code_sent_inner (hinner e he)
          | _ => cases hasks

theorem countP_session {apple_id password : Str} {trace : Prog.Trace (Both Answer Resp)}
    {result : Except Str DeveloperSession}
    (h : (open_session lib callback apple_id password).Runs trace result) :
    trace.countP (fun e => (code_sent e.1).isSome) ≤ MAX_ASKED := by
  obtain ⟨prepared, rest, rfl, h⟩ := h
  cases prepared with
  | error e =>
      obtain ⟨rfl, -⟩ := h
      exact Nat.zero_le _
  | ok _ =>
      obtain ⟨signing, signed, finishing, rfl, hsigning, hfinishing⟩ :=
        (Prog.runs_bind (signed_in lib callback apple_id password) (finish lib) rest result).mp h
      obtain ⟨calls, hcalls, hcarried⟩ := (Prog.runs_expand _ _ _).mp hsigning
      obtain ⟨hasked, hsent, -⟩ := asked_bound hcalls
      rw [List.countP_cons, List.countP_append, countP_carried hcarried,
        countP_silent fun e he => (finish_quiet hfinishing e he).2]
      exact hsent.trans hasked

-- A sign-in without a terminal sends Apple no code but the empty one, and that 14 times at most.
theorem unattended_codes {apple_id password : Str} {trace : Prog.Trace (Both Answer Resp)}
    {result : Except Str DeveloperSession}
    (h : (open_session lib no_code apple_id password).Runs trace result) :
    (∀ e ∈ trace, ∀ way code, code_sent e.1 = some (way, code) → code = []) ∧
      trace.countP (fun e => (code_sent e.1).isSome) ≤ 14 := by
  refine ⟨fun e he way code hcode => ?_, countP_session h⟩
  obtain ⟨before, after, rfl⟩ := List.append_of_mem he
  obtain ⟨params, first, mid, rest, rfl, hmid, -⟩ := code_of_session h hcode
  obtain ⟨-, hsame⟩ := hmid
  cases hsame
  rfl

theorem unattended_codes_renewal :
    (∀ e ∈ (sample_session no_code).1, ∀ way code, code_sent e.1 = some (way, code) → code = []) ∧
      (sample_session no_code).1.countP (fun e => (code_sent e.1).isSome) ≤ 14 :=
  unattended_codes (sample_session_runs no_code)

end Codes

end AltKeeper.GrandSlam
