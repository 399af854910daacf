import AltKeeper.GrandSlam.Exchange

-- What is said in a sign-in, from its first call to its last.
namespace AltKeeper.GrandSlam

section Record

variable (lib : Libs)

def exchange (trace : Prog.Trace Answer) : Exchange := trace.foldl (Exchange.advance lib) {}

-- Every call was allowed by those before it.
def Conducted (trace : Prog.Trace Answer) : Prop :=
  ∀ before e after, trace = before ++ e :: after → (exchange lib before).Allows e.1

theorem exchange_snoc (trace : Prog.Trace Answer) (e : Prog.Event Answer) :
    exchange lib (trace ++ [e]) = (exchange lib trace).advance lib e := by
  rw [exchange, List.foldl_append]
  rfl

variable {lib}

theorem Conducted.before {first rest : Prog.Trace Answer} (h : Conducted lib (first ++ rest)) :
    Conducted lib first := by
  rintro before e after rfl
  exact h before e (after ++ rest) (by simp)

theorem login_conducted {email password : Str} {trace : Prog.Trace Answer}
    {result : Except Report AppleAccount} (h : (login lib email password).run.Runs trace result) :
    Conducted lib trace := by
  rintro before e after rfl
  exact Prog.wp_allows (fun _ _ => rfl) (login_wp email password) h

-- What a call other than a question does to the record.
theorem advance_of_not_asks {x : Exchange} {e : Prog.Event Answer} (h : e.1.asks = false) :
    x.advance lib e = {
      asked := x.asked
      signed_in := if e.1.signs_in then x.signed_in + 1 else x.signed_in
      accepted := if accepts lib e.1 e.2 then x.accepted + 1 else x.accepted
      demanded := (demands lib e.1 e.2).getD (x.demanded && !accepts lib e.1 e.2)
      given := if e.1.code.isSome then none else x.given
      refused := (refusal lib e.1 e.2).or x.refused
      numbers := numbers_given lib e.1 e.2 ++ x.numbers } := by
  obtain ⟨c, r⟩ := e
  cases c <;> first | rfl | cases h

variable (lib)

-- A question to the user.
theorem advance_of_asks {x : Exchange} {e : Prog.Event Answer} (h : e.1.asks = true) :
    ∃ params response, e = ⟨.two_factor_callback params, response⟩ ∧
      x.advance lib e = x.ask params response := by
  obtain ⟨c, r⟩ := e
  cases c <;> first | exact ⟨_, _, rfl, rfl⟩ | cases h

end Record

section Given

variable {lib : Libs}

-- The code that was not sent yet is the one that the user gave last.
theorem given_last {trace : Prog.Trace Answer} {way : Way} {code : Str}
    (h : (exchange lib trace).given = some (way, code)) :
    ∃ first params rest,
      trace = first ++ ⟨.two_factor_callback params, .ok (.submit_code code)⟩ :: rest ∧
      params.way = some way ∧ ∀ e ∈ rest, e.1.asks = false ∧ e.1.code = none := by
  induction trace using List.reverseRecOn with
  | nil => cases h
  | append_singleton trace e ih =>
      rw [exchange_snoc] at h
      cases hasks : e.1.asks with
      | false =>
          rw [advance_of_not_asks hasks] at h
          dsimp only at h
          split at h
          · cases h
          · rename_i hcode
            obtain ⟨first, params, rest, rfl, hway, hrest⟩ := ih h
            refine ⟨first, params, rest ++ [e], by simp, hway, ?_⟩
            exact List.forall_mem_append.mpr ⟨hrest, List.forall_mem_singleton.mpr
              ⟨hasks, Option.not_isSome_iff_eq_none.mp hcode⟩⟩
      | true =>
          obtain ⟨params, response, rfl, hadvance⟩ := advance_of_asks lib hasks
          rw [hadvance] at h
          cases response with
          | error e => cases h
          | ok response =>
              cases response with
              | submit_code code' =>
                  obtain ⟨way', hway, hsame⟩ := Option.map_eq_some_iff.mp h
                  obtain ⟨rfl, rfl⟩ := Prod.mk.inj hsame
                  exact ⟨trace, params, [], rfl, hway, List.forall_mem_nil _⟩
              | _ => cases h

theorem given_of_code {before after : Prog.Trace Answer} {e : Prog.Event Answer}
    (h : Conducted lib (before ++ e :: after)) {way : Way} {code : Str}
    (hcode : e.1.code = some (way, code)) : (exchange lib before).given = some (way, code) := by
  have hallowed := h before e after rfl
  obtain ⟨c, r⟩ := e
  cases c with
  | send req =>
      cases req
      all_goals first | cases hcode; done | exact (hallowed rfl).symm.trans hcode
  | _ => cases hcode

-- A code that goes to Apple is the one that the user gave last, it goes the way that the user was
-- asked about, and it goes once.
theorem code_was_given {email password : Str} {before after : Prog.Trace Answer}
    {e : Prog.Event Answer} {result : Except Report AppleAccount}
    (h : (login lib email password).run.Runs (before ++ e :: after) result) {way : Way} {code : Str}
    (hcode : e.1.code = some (way, code)) :
    ∃ first params rest,
      before = first ++ ⟨.two_factor_callback params, .ok (.submit_code code)⟩ :: rest ∧
      params.way = some way ∧ ∀ e ∈ rest, e.1.asks = false ∧ e.1.code = none := by
  exact given_last (given_of_code (login_conducted h) hcode)

theorem code_was_given_wrong : ∃ before e after result,
    (login sample_libs "a@b.c".toList "p".toList).run.Runs (before ++ e :: after) result ∧
    e.1.code = some (.devices, "111111".toList) ∧ ∃ first params rest,
      before = first ++ ⟨.two_factor_callback params, .ok (.submit_code "111111".toList)⟩ :: rest ∧
      params.way = some .devices ∧ ∀ e ∈ rest, e.1.asks = false ∧ e.1.code = none := by
  have hsent : ∃ e ∈ sample_login.1, e.1.code = some (.devices, "111111".toList) := by decide +kernel
  obtain ⟨e, he, hcode⟩ := hsent
  obtain ⟨before, after, hsplit⟩ := List.append_of_mem he
  have hruns := sample_login_runs
  rw [hsplit] at hruns
  exact ⟨before, e, after, _, hruns, hcode, code_was_given hruns hcode⟩

end Given

section Numbers

variable {lib : Libs}

theorem number_given {trace : Prog.Trace Answer} {id : UInt32} (h : id ∈ (exchange lib trace).numbers) :
    ∃ e ∈ trace, id ∈ numbers_given lib e.1 e.2 := by
  induction trace using List.reverseRecOn with
  | nil => cases h
  | append_singleton trace e ih =>
      have hearlier : id ∈ (exchange lib trace).numbers →
          ∃ e' ∈ trace ++ [e], id ∈ numbers_given lib e'.1 e'.2 := fun hid =>
        (ih hid).imp fun _ he => ⟨List.mem_append_left _ he.1, he.2⟩
      rw [exchange_snoc] at h
      cases hasks : e.1.asks with
      | false =>
          rw [advance_of_not_asks hasks] at h
          rcases List.mem_append.mp h with hnew | hold
          · exact ⟨e, by simp, hnew⟩
          · exact hearlier hold
      | true =>
          obtain ⟨params, response, rfl, hadvance⟩ := advance_of_asks lib hasks
          rw [hadvance] at h
          refine hearlier ?_
          cases response with
          | error e => exact h
          | ok response => cases response <;> exact h

-- Only a number of the account is ever sent a code, or the first one.
theorem sms_to_known_number {email password : Str} {before after : Prog.Trace Answer}
    {headers : Headers} {id : UInt32} {r : Except Report Reply} {result : Except Report AppleAccount}
    (h : (login lib email password).run.Runs
      (before ++ ⟨.send (.put_phone headers id), r⟩ :: after) result) :
    id = 1 ∨ ∃ e ∈ before, id ∈ numbers_given lib e.1 e.2 :=
  (login_conducted h before _ after rfl).2.imp_right number_given

theorem sms_to_known_number_chosen : ∃ before after headers id r result,
    (login sample_libs "a@b.c".toList "p".toList).run.Runs
      (before ++ ⟨.send (.put_phone headers id), r⟩ :: after) result ∧
    (id = 1 ∨ ∃ e ∈ before, id ∈ numbers_given sample_libs e.1 e.2) := by
  have hsent : ∃ e ∈ sample_login.1, e.1.sends_sms = true := by decide +kernel
  obtain ⟨⟨c, r⟩, he, hcall⟩ := hsent
  obtain ⟨before, after, hsplit⟩ := List.append_of_mem he
  have hruns := sample_login_runs
  rw [hsplit] at hruns
  cases c with
  | send req =>
      cases req with
      | put_phone headers id =>
          exact ⟨before, after, headers, id, r, _, hruns, sms_to_known_number hruns⟩
      | _ => cases hcall
  | _ => cases hcall

end Numbers

section Bounds

variable (lib : Libs)

theorem exchange_counts (trace : Prog.Trace Answer) :
    (exchange lib trace).asked = trace.countP (·.1.asks) ∧
      (exchange lib trace).signed_in = trace.countP (·.1.signs_in) ∧
      (exchange lib trace).accepted = trace.countP fun e => accepts lib e.1 e.2 := by
  induction trace using List.reverseRecOn with
  | nil => exact ⟨rfl, rfl, rfl⟩
  | append_singleton trace e ih =>
      obtain ⟨hasked, hsigned, haccepted⟩ := ih
      rw [exchange_snoc]
      simp only [List.countP_append, List.countP_singleton]
      cases hasks : e.1.asks with
      | false =>
          rw [advance_of_not_asks hasks]
          refine ⟨hasked, ?_, ?_⟩
          · dsimp only
            split <;> omega
          · dsimp only
            split <;> omega
      | true =>
          obtain ⟨params, response, rfl, hadvance⟩ := advance_of_asks lib hasks
          rw [hadvance]
          cases response with
          | error e => exact ⟨congrArg (· + 1) hasked, hsigned, haccepted⟩
          | ok response => cases response <;> exact ⟨congrArg (· + 1) hasked, hsigned, haccepted⟩

variable {lib}

-- A code that was given is sent once.
theorem sent_le_asked {trace : Prog.Trace Answer} (h : Conducted lib trace) :
    trace.countP (·.1.code.isSome) + (if (exchange lib trace).given.isSome then 1 else 0) ≤
      trace.countP (·.1.asks) := by
  induction trace using List.reverseRecOn with
  | nil => exact Nat.le_refl 0
  | append_singleton trace e ih =>
      have hbefore := ih h.before
      rw [exchange_snoc]
      simp only [List.countP_append, List.countP_singleton]
      cases hasks : e.1.asks with
      | false =>
          rw [advance_of_not_asks hasks]
          dsimp only
          cases hcode : e.1.code.isSome with
          | false =>
              simp only [Bool.false_eq_true, if_false]
              omega
          | true =>
              obtain ⟨⟨way, code⟩, hsent⟩ := Option.isSome_iff_exists.mp hcode
              rw [given_of_code h hsent, Option.isSome_some] at hbefore
              simp only [if_true, Option.isSome_none, Bool.false_eq_true, if_false] at hbefore ⊢
              omega
      | true =>
          have hcode : e.1.code.isSome = false := by
            obtain ⟨c, r⟩ := e
            cases c <;> first | rfl | cases hasks
          have hpending : (if ((exchange lib trace).advance lib e).given.isSome then 1 else 0) ≤ 1 := by
            split <;> omega
          rw [hcode]
          simp only [Bool.false_eq_true, if_false, if_true]
          omega

-- What every call keeps of the counts.
theorem advance_bounds {x : Exchange} {e : Prog.Event Answer}
    (hx : x.asked ≤ MAX_ASKED ∧ x.signed_in ≤ x.accepted + 1) (hallowed : x.Allows e.1) :
    (x.advance lib e).asked ≤ MAX_ASKED ∧
      (x.advance lib e).signed_in ≤ (x.advance lib e).accepted + 1 := by
  cases hasks : e.1.asks with
  | false =>
      have hsigns : e.1.signs_in = true → x.signed_in = x.accepted := fun hsigns => by
        obtain ⟨c, r⟩ := e
        cases c with
        | send req => cases req <;> first | exact hallowed.1 | cases hsigns
        | _ => cases hsigns
      rw [advance_of_not_asks hasks]
      refine ⟨hx.1, ?_⟩
      dsimp only
      split
      · rename_i hsigned
        rw [hsigns hsigned]
        split <;> omega
      · split <;> omega
  | true =>
      obtain ⟨params, response, rfl, hadvance⟩ := advance_of_asks lib hasks
      rw [hadvance]
      have hasked : x.asked + 1 ≤ MAX_ASKED := hallowed.2.1
      cases response with
      | error e => exact ⟨hasked, hx.2⟩
      | ok response => cases response <;> exact ⟨hasked, hx.2⟩

theorem asked_bound {email password : Str} {trace : Prog.Trace Answer}
    {result : Except Report AppleAccount} (h : (login lib email password).run.Runs trace result) :
    trace.countP (·.1.asks) ≤ MAX_ASKED ∧ trace.countP (·.1.code.isSome) ≤ trace.countP (·.1.asks) ∧
      trace.countP (·.1.signs_in) ≤ (trace.countP fun e => accepts lib e.1 e.2) + 1 := by
  have hkept : (exchange lib trace).asked ≤ MAX_ASKED ∧
      (exchange lib trace).signed_in ≤ (exchange lib trace).accepted + 1 :=
    Prog.wp_keeps (fun _ _ => rfl) (fun _ _ => advance_bounds) (login_wp email password)
      ⟨Nat.zero_le _, Nat.zero_le _⟩ h
  obtain ⟨hasked, hsigned, haccepted⟩ := exchange_counts lib trace
  have hsent := sent_le_asked (login_conducted h)
  rw [hasked, hsigned, haccepted] at hkept
  exact ⟨hkept.1, by omega, hkept.2⟩

-- The user is asked 14 times at most, and the password is proved once and after each accepted code.
theorem sign_in_bounds {email password : Str} {trace : Prog.Trace Answer}
    {result : Except Report AppleAccount} (h : (login lib email password).run.Runs trace result) :
    trace.countP (·.1.asks) ≤ 14 ∧ trace.countP (·.1.code.isSome) ≤ trace.countP (·.1.asks) ∧
      trace.countP (·.1.signs_in) ≤ (trace.countP fun e => accepts lib e.1 e.2) + 1 :=
  asked_bound h

theorem sign_in_bounds_wrong : sample_login.1.countP (·.1.asks) ≤ 14 ∧
    sample_login.1.countP (·.1.code.isSome) ≤ sample_login.1.countP (·.1.asks) ∧
    sample_login.1.countP (·.1.signs_in) ≤
      (sample_login.1.countP fun e => accepts sample_libs e.1 e.2) + 1 :=
  sign_in_bounds sample_login_runs

end Bounds

section Demanded

variable {lib : Libs}

theorem demands_complete {e : Prog.Event Answer} {wanted : Bool}
    (h : demands lib e.1 e.2 = some wanted) :
    ∃ url email proof c cpd, e.1 = .send (.complete url email proof c cpd) := by
  obtain ⟨c, r⟩ := e
  cases c with
  | send req => cases req <;> first | exact ⟨_, _, _, _, _, rfl⟩ | cases h
  | _ => cases h

theorem ask_demanded (x : Exchange) (params : TwoFactorCallbackParams)
    (response : Except Report TwoFactorCallbackResponse) :
    (x.ask params response).demanded = x.demanded := by
  cases response with
  | error e => rfl
  | ok response => cases response <;> rfl

-- While no code is accepted, Apple's demand for one stands.
theorem still_demanded {before after : Prog.Trace Answer} {e : Prog.Event Answer}
    (h : Conducted lib (before ++ e :: after)) (hdemands : demands lib e.1 e.2 = some true)
    (hnone : ∀ e' ∈ after, accepts lib e'.1 e'.2 = false) :
    (exchange lib (before ++ e :: after)).demanded = true := by
  induction after using List.reverseRecOn with
  | nil =>
      obtain ⟨url, email, proof, c, cpd, hcall⟩ := demands_complete hdemands
      rw [exchange_snoc, advance_of_not_asks (by rw [hcall]; rfl), hdemands]
      rfl
  | append_singleton after e' ih =>
      have hsplit : before ++ e :: (after ++ [e']) = (before ++ e :: after) ++ [e'] := by simp
      rw [hsplit] at h ⊢
      have hstands := ih h.before fun e'' he'' => hnone e'' (List.mem_append_left _ he'')
      have hallowed := h _ e' [] rfl
      rw [exchange_snoc]
      cases hasks : e'.1.asks with
      | true =>
          obtain ⟨params, response, rfl, hadvance⟩ := advance_of_asks lib hasks
          rw [hadvance, ask_demanded, hstands]
      | false =>
          rw [advance_of_not_asks hasks, hnone e' (by simp)]
          dsimp only
          cases hagain : demands lib e'.1 e'.2 with
          | none =>
              rw [hstands]
              rfl
          | some wanted =>
              obtain ⟨url, email, proof, c, cpd, hcall⟩ := demands_complete hagain
              rw [hcall] at hallowed
              rw [hallowed] at hstands
              cases hstands

-- A sign-in from which Apple has asked for a code succeeds only when Apple has accepted one since.
theorem demanded_code_accepted {email password : Str} {before after : Prog.Trace Answer}
    {e : Prog.Event Answer} {acct : AppleAccount}
    (h : (login lib email password).run.Runs (before ++ e :: after) (.ok acct))
    (hdemands : demands lib e.1 e.2 = some true) : ∃ e' ∈ after, accepts lib e'.1 e'.2 = true := by
  by_contra hnone
  push Not at hnone
  have hstands := still_demanded (login_conducted h) hdemands fun e' he' =>
    Bool.eq_false_iff.mpr (hnone e' he')
  have hover := Prog.wp_runs (fun _ _ => rfl) (login_wp email password) h
  rw [exchange, hover.2.1] at hstands
  cases hstands

theorem demanded_code_accepted_second : ∃ before e after acct,
    (login sample_libs "a@b.c".toList "p".toList).run.Runs (before ++ e :: after) (.ok acct) ∧
    demands sample_libs e.1 e.2 = some true ∧
    ∃ e' ∈ after, accepts sample_libs e'.1 e'.2 = true := by
  have hdemanded : ∃ e ∈ sample_login.1, demands sample_libs e.1 e.2 = some true := by
    decide +kernel
  have hok : sample_login.2.toOption.isSome = true := by decide +kernel
  obtain ⟨e, he, hdemands⟩ := hdemanded
  obtain ⟨before, after, hsplit⟩ := List.append_of_mem he
  have hruns := sample_login_runs
  rw [hsplit] at hruns
  cases hresult : sample_login.2 with
  | error e => rw [hresult] at hok; cases hok
  | ok acct =>
      rw [hresult] at hruns
      exact ⟨before, e, after, acct, hruns, hdemands, demanded_code_accepted hruns hdemands⟩

end Demanded

section Errors

variable {lib : Libs}

theorem refused_eq (trace : Prog.Trace Answer) : (exchange lib trace).refused =
    (trace.reverse.takeWhile fun e => !e.1.asks).findSome? fun e => refusal lib e.1 e.2 := by
  induction trace using List.reverseRecOn with
  | nil => rfl
  | append_singleton trace e ih =>
      rw [exchange_snoc, List.reverse_append, List.reverse_singleton, List.singleton_append]
      cases hasks : e.1.asks with
      | true =>
          rw [List.takeWhile_cons_of_neg (by simp [hasks])]
          obtain ⟨params, response, rfl, hadvance⟩ := advance_of_asks lib hasks
          rw [hadvance]
          cases response with
          | error e => rfl
          | ok response => cases response <;> rfl
      | false =>
          rw [List.takeWhile_cons_of_pos (by simp [hasks]), advance_of_not_asks hasks,
            List.findSome?_cons, ih]
          cases refusal lib e.1 e.2 <;> rfl

theorem demanded_last {trace : Prog.Trace Answer} (h : (exchange lib trace).demanded = true) :
    ∃ first e rest, trace = first ++ e :: rest ∧ demands lib e.1 e.2 = some true ∧
      ∀ e' ∈ rest, accepts lib e'.1 e'.2 = false := by
  induction trace using List.reverseRecOn with
  | nil => cases h
  | append_singleton trace e ih =>
      have hearlier : (exchange lib trace).demanded = true → accepts lib e.1 e.2 = false →
          ∃ first e' rest, trace ++ [e] = first ++ e' :: rest ∧ demands lib e'.1 e'.2 = some true ∧
            ∀ e'' ∈ rest, accepts lib e''.1 e''.2 = false := by
        intro hdemanded haccepts
        obtain ⟨first, e', rest, rfl, hdemands, hrest⟩ := ih hdemanded
        refine ⟨first, e', rest ++ [e], by simp, hdemands, ?_⟩
        exact List.forall_mem_append.mpr ⟨hrest, List.forall_mem_singleton.mpr haccepts⟩
      rw [exchange_snoc] at h
      cases hasks : e.1.asks with
      | true =>
          obtain ⟨params, response, rfl, hadvance⟩ := advance_of_asks lib hasks
          rw [hadvance, ask_demanded] at h
          exact hearlier h rfl
      | false =>
          rw [advance_of_not_asks hasks] at h
          dsimp only at h
          cases hagain : demands lib e.1 e.2 with
          | none =>
              rw [hagain, Option.getD_none, Bool.and_eq_true, Bool.not_eq_true'] at h
              exact hearlier h.1 h.2
          | some wanted =>
              rw [hagain, Option.getD_some] at h
              subst h
              exact ⟨trace, e, [], rfl, hagain, List.forall_mem_nil _⟩

-- The user is asked only while Apple waits for a code, and shown what Apple said against the last
-- one.
theorem asked_when_demanded {email password : Str} {before after : Prog.Trace Answer}
    {params : TwoFactorCallbackParams} {response : Except Report TwoFactorCallbackResponse}
    {result : Except Report AppleAccount}
    (h : (login lib email password).run.Runs
      (before ++ ⟨.two_factor_callback params, response⟩ :: after) result) :
    (params.last_error =
      (before.reverse.takeWhile fun e => !e.1.asks).findSome? fun e => refusal lib e.1 e.2) ∧
    ∃ first e rest, before = first ++ e :: rest ∧ demands lib e.1 e.2 = some true ∧
      ∀ e' ∈ rest, accepts lib e'.1 e'.2 = false := by
  obtain ⟨hdemanded, -, herror⟩ := login_conducted h before _ after rfl
  exact ⟨herror.trans (refused_eq before), demanded_last hdemanded⟩

theorem asked_when_demanded_again : ∃ before after params response result,
    (login sample_libs "a@b.c".toList "p".toList).run.Runs
      (before ++ ⟨.two_factor_callback params, response⟩ :: after) result ∧
    params.last_error.isSome = true ∧ (params.last_error =
      (before.reverse.takeWhile fun e => !e.1.asks).findSome? fun e =>
        refusal sample_libs e.1 e.2) ∧
    ∃ first e rest, before = first ++ e :: rest ∧ demands sample_libs e.1 e.2 = some true ∧
      ∀ e' ∈ rest, accepts sample_libs e'.1 e'.2 = false := by
  have hasked : ∃ e ∈ sample_login.1, e.1.shows_error = true := by decide +kernel
  obtain ⟨⟨c, r⟩, he, hcall⟩ := hasked
  obtain ⟨before, after, hsplit⟩ := List.append_of_mem he
  have hruns := sample_login_runs
  rw [hsplit] at hruns
  cases c with
  | two_factor_callback params =>
      exact ⟨before, after, params, r, _, hruns, hcall, asked_when_demanded hruns⟩
  | _ => cases hcall

end Errors

end AltKeeper.GrandSlam
