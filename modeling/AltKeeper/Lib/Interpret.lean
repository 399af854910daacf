import AltKeeper.Lib.Prog

-- What the calls of a run were allowed by, programs that may fail, and the runs of programs whose
-- calls are carried out by programs over another interface.
namespace Prog

variable {Cmd : Type} {Resp : Cmd → Type} {α β σ : Type}

section Allowed

variable {P : Protocol Resp σ} {advance : σ → Event Resp → σ}
  (hstep : ∀ s (e : Event Resp), P.step s e.1 e.2 (advance s e))

include hstep

-- Every call of a run was allowed in the state that the calls before it led to.
theorem wp_allows {p : Prog Resp α} {post : α → σ → Prop} {s : σ} (hp : p.wp P post s)
    {before after : Trace Resp} {e : Event Resp} {a : α} (h : p.Runs (before ++ e :: after) a) :
    P.allows (before.foldl advance s) e.1 := by
  induction before generalizing p s with
  | nil =>
      cases p with
      | ret b => exact nomatch h.1
      | call c k =>
          obtain ⟨r, rest, htrace, -⟩ := h
          obtain ⟨rfl, -⟩ := List.cons.inj htrace
          exact hp.1
  | cons e₀ before ih =>
      cases p with
      | ret b => exact nomatch h.1
      | call c k =>
          obtain ⟨r, rest, htrace, h⟩ := h
          obtain ⟨rfl, rfl⟩ := List.cons.inj htrace
          exact ih (hp.2 r _ (hstep s ⟨c, r⟩)) h

-- What every allowed call keeps holds at the end of a run.
theorem wp_keeps {keep : σ → Prop}
    (hkeep : ∀ s (e : Event Resp), keep s → P.allows s e.1 → keep (advance s e)) {p : Prog Resp α}
    {post : α → σ → Prop} {s : σ} (hp : p.wp P post s) (hs : keep s) {trace : Trace Resp} {a : α}
    (h : p.Runs trace a) : keep (trace.foldl advance s) := by
  induction p generalizing s trace with
  | ret b =>
      obtain ⟨rfl, -⟩ := h
      exact hs
  | call c k ih =>
      obtain ⟨r, rest, rfl, h⟩ := h
      exact ih r (hp.2 r _ (hstep s ⟨c, r⟩)) (hkeep s ⟨c, r⟩ hs hp.1) h

end Allowed

section Until

variable {P : Protocol Resp σ} {gives_up : (c : Cmd) → Resp c → Prop}

-- The protocol until the outside gives up on it; nothing is asked, or known, after that.
def Protocol.until (P : Protocol Resp σ) (gives_up : (c : Cmd) → Resp c → Prop) :
    Protocol Resp (Option σ) where
  allows s c := ∀ t ∈ s, P.allows t c
  step s c r s' :=
    match s with
    | none => s' = none
    | some t => (∃ t', s' = some t' ∧ P.step t c r t') ∨ (s' = none ∧ gives_up c r)

theorem wp_until {p : Prog Resp α} {post : α → σ → Prop} {s : Option σ}
    (hp : ∀ t ∈ s, p.wp P post t) :
    p.wp (P.until gives_up) (fun a s' => ∀ t ∈ s', post a t) s := by
  induction p generalizing s with
  | ret a => exact hp
  | call c k ih =>
      refine ⟨fun t ht => (hp t ht).1, fun r s' hstep => ih r ?_⟩
      intro t' ht'
      cases s with
      | none =>
          obtain rfl : s' = none := hstep
          cases ht'
      | some t =>
          rcases hstep with ⟨u, rfl, hstep⟩ | ⟨rfl, -⟩
          · obtain rfl : u = t' := Option.some.inj ht'
            exact (hp t rfl).2 r u hstep
          · cases ht'

end Until

section Chronicle

variable {allows : Trace Resp → Cmd → Prop}

-- The protocol whose state is what was called so far.
def chronicle (allows : Trace Resp → Cmd → Prop) : Protocol Resp (Trace Resp) where
  allows := allows
  step past c r past' := past' = past ++ [⟨c, r⟩]

theorem chronicle_allows {p : Prog Resp α} {post : α → Trace Resp → Prop}
    (hp : p.wp (chronicle allows) post []) {before after : Trace Resp} {e : Event Resp} {a : α}
    (h : p.Runs (before ++ e :: after) a) : allows before e.1 := by
  have hpast : ∀ past : Trace Resp, before.foldl (fun past e => past ++ [e]) past = past ++ before := by
    clear h
    induction before with
    | nil => simp
    | cons e before ih => simp [ih]
  have hallowed : allows (before.foldl (fun past e => past ++ [e]) []) e.1 :=
    wp_allows (fun _ _ => rfl) hp h
  rwa [hpast] at hallowed

-- A program whose calls are allowed whatever follows the past is allowed to its end, and adds its own
-- run to the past.
theorem wp_chronicle {p : Prog Resp α} {past : Trace Resp}
    (hp : p.Uses fun c => ∀ rest, allows (past ++ rest) c) :
    p.wp (chronicle allows) (fun a past' => ∃ trace, past' = past ++ trace ∧ p.Runs trace a) past := by
  induction p generalizing past with
  | ret a => exact ⟨[], (List.append_nil past).symm, rfl, rfl⟩
  | call c k ih =>
      have hc := hp.1 []
      rw [List.append_nil] at hc
      refine ⟨hc, ?_⟩
      rintro r _ rfl
      have hk : (k r).Uses fun d => ∀ rest, allows (past ++ [⟨c, r⟩] ++ rest) d :=
        (hp.2 r).mono fun d hd rest => by
          rw [List.append_assoc]
          exact hd _
      refine wp_mono (ih r hk) ?_
      rintro a _ ⟨trace, rfl, h⟩
      exact ⟨⟨c, r⟩ :: trace, by simp, r, trace, rfl, h⟩

-- What follows it starts from what its run adds.
theorem chronicle_seq {p : Prog Resp α} {f : α → Prog Resp β} {past : Trace Resp}
    (hp : p.Uses fun c => ∀ rest, allows (past ++ rest) c)
    (hf : ∀ trace a, p.Runs trace a → (f a).wp (chronicle allows) (fun _ _ => True) (past ++ trace)) :
    (p >>= f).wp (chronicle allows) (fun _ _ => True) past := by
  refine wp_seq (wp_chronicle hp) ?_
  rintro a _ ⟨trace, rfl, h⟩
  exact hf trace a h

end Chronicle

section Sequence

theorem Uses.bind_runs {P : Cmd → Prop} {p : Prog Resp α} {f : α → Prog Resp β} (hp : p.Uses P)
    (hf : ∀ trace a, p.Runs trace a → (f a).Uses P) : (p >>= f).Uses P := by
  induction p with
  | ret a => exact hf [] a ⟨rfl, rfl⟩
  | call c k ih =>
      refine ⟨hp.1, fun r => ih r (hp.2 r) fun trace a h => ?_⟩
      exact hf (⟨c, r⟩ :: trace) a ⟨r, trace, rfl, h⟩

-- A run that makes a call of a kind, split at such a call.
theorem exec_event (answer : σ → (c : Cmd) → Resp c × σ) (p : Prog Resp α) (s : σ) {test : Cmd → Bool}
    (h : (p.exec answer s).1.any (fun e => test e.1) = true) :
    ∃ before c r after, test c = true ∧ p.Runs (before ++ ⟨c, r⟩ :: after) (p.exec answer s).2 := by
  obtain ⟨⟨c, r⟩, hmem, htest⟩ := List.any_eq_true.mp h
  obtain ⟨before, after, htrace⟩ := List.append_of_mem hmem
  exact ⟨before, c, r, after, htest, htrace ▸ runs_exec answer p s⟩

-- An event of a sequence whose second part has none of the kind is one of the first part.
theorem runs_bind_within {p : Prog Resp α} {f : α → Prog Resp β} {before after : Trace Resp}
    {e : Event Resp} {b : β} (h : (p >>= f).Runs (before ++ e :: after) b)
    (hf : ∀ a rest, (f a).Runs rest b → e ∉ rest) :
    ∃ a mid rest, after = mid ++ rest ∧ p.Runs (before ++ e :: mid) a ∧ (f a).Runs rest b := by
  obtain ⟨first, a, rest, hsplit, hfirst, hrest⟩ := (runs_bind p f _ b).mp h
  have hnone := hf a rest hrest
  rcases List.append_eq_append_iff.mp hsplit with ⟨mid, rfl, hafter⟩ | ⟨mid, rfl, hafter⟩
  · cases mid with
    | nil => exact absurd (by rw [← List.nil_append rest, ← hafter]; exact List.mem_cons_self) hnone
    | cons e' mid =>
        obtain ⟨rfl, rfl⟩ := List.cons.inj hafter
        exact ⟨a, mid, rest, rfl, hfirst, hrest⟩
  · exact absurd (by rw [hafter]; exact List.mem_append_right _ List.mem_cons_self) hnone

end Sequence

section Fallible

variable {ε : Type} {P : Protocol Resp σ}

-- A condition on what a program that may fail returns; nothing is asked of a failure.
def OnOk (post : α → σ → Prop) : Except ε α → σ → Prop
  | .ok a, s => post a s
  | .error _, _ => True

theorem wp_pure_ok {post : α → σ → Prop} {a : α} {s : σ} (h : post a s) :
    (pure a : ExceptT ε (Prog Resp) α).run.wp P (OnOk post) s := h

theorem wp_throw {post : α → σ → Prop} {e : ε} {s : σ} :
    (throw e : ExceptT ε (Prog Resp) α).run.wp P (OnOk post) s := trivial

-- A value that was computed without a call, or is missing.
theorem wp_lift_bind {x : Except ε α} {f : α → ExceptT ε (Prog Resp) β} {post : β → σ → Prop} {s : σ}
    (h : ∀ a, x = .ok a → (f a).run.wp P (OnOk post) s) : (liftM x >>= f).run.wp P (OnOk post) s := by
  cases x with
  | error e => trivial
  | ok a => exact h a rfl

theorem wp_context_bind {ε' : Type} {x : Except ε' α} {g : ε' → ε}
    {f : α → ExceptT ε (Prog Resp) β} {post : β → σ → Prop} {s : σ}
    (h : ∀ a, x = .ok a → (f a).run.wp P (OnOk post) s) :
    (liftM (x.mapError g) >>= f).run.wp P (OnOk post) s := by
  cases x with
  | error e => trivial
  | ok a => exact h a rfl

-- The rule of `?`: what fails ends the program.
theorem wp_try {x : ExceptT ε (Prog Resp) α} {f : α → ExceptT ε (Prog Resp) β} {m : α → σ → Prop}
    {post : β → σ → Prop} {s : σ} (hx : x.run.wp P (OnOk m) s)
    (hf : ∀ a s', m a s' → (f a).run.wp P (OnOk post) s') : (x >>= f).run.wp P (OnOk post) s := by
  rw [ExceptT.run_bind]
  refine wp_seq hx ?_
  rintro (e | a) s' h
  · trivial
  · exact hf a s' h

-- The rule of `?` for what is followed by what can be run anywhere.
theorem wp_try_any {x : ExceptT ε (Prog Resp) α} {f : α → ExceptT ε (Prog Resp) β}
    {post : β → σ → Prop} {s : σ} (hx : x.run.wp P (fun _ _ => True) s)
    (hf : ∀ a s', (f a).run.wp P (OnOk post) s') : (x >>= f).run.wp P (OnOk post) s := by
  rw [ExceptT.run_bind]
  refine wp_seq hx ?_
  rintro (e | a) s' -
  · trivial
  · exact hf a s'

-- The rule of `?` for what leaves the party where it is.
theorem wp_quiet {x : ExceptT ε (Prog Resp) α} {f : α → ExceptT ε (Prog Resp) β}
    {post : β → σ → Prop} {s : σ} (hx : x.run.wp P (OnOk fun _ s' => s' = s) s)
    (hf : ∀ a, (f a).run.wp P (OnOk post) s) : (x >>= f).run.wp P (OnOk post) s := by
  refine wp_try hx ?_
  rintro a s' rfl
  exact hf a

-- What is said of the failure changes nothing else.
theorem wp_adapt {ε' : Type} {x : ExceptT ε (Prog Resp) α} {f : ε → ε'} {post : α → σ → Prop} {s : σ}
    (hx : x.run.wp P (OnOk post) s) : (ExceptT.adapt f x).run.wp P (OnOk post) s := by
  refine wp_seq (f := fun r => Prog.ret (r.mapError f)) hx ?_
  rintro (e | a) s' h
  · trivial
  · exact h

-- The runs of what succeeds.
section Successes

variable {trace : Trace Resp} {b : β}

theorem runs_try {x : ExceptT ε (Prog Resp) α} {f : α → ExceptT ε (Prog Resp) β}
    (h : (x >>= f).run.Runs trace (.ok b)) : ∃ first a rest, trace = first ++ rest ∧
      x.run.Runs first (.ok a) ∧ (f a).run.Runs rest (.ok b) := by
  rw [ExceptT.run_bind] at h
  obtain ⟨first, r, rest, rfl, hfirst, hrest⟩ := (runs_bind _ _ _ _).mp h
  cases r with
  | error e => cases hrest.2
  | ok a => exact ⟨first, a, rest, rfl, hfirst, hrest⟩

theorem runs_lift_bind {x : Except ε α} {f : α → ExceptT ε (Prog Resp) β}
    (h : (liftM x >>= f).run.Runs trace (.ok b)) : ∃ a, x = .ok a ∧ (f a).run.Runs trace (.ok b) := by
  cases x with
  | error e => cases h.2
  | ok a => exact ⟨a, rfl, h⟩

theorem runs_adapt {ε' : Type} {x : ExceptT ε (Prog Resp) β} {f : ε → ε'}
    (h : (ExceptT.adapt f x).run.Runs trace (.ok b)) : x.run.Runs trace (.ok b) := by
  obtain ⟨first, r, rest, rfl, hfirst, rfl, hr⟩ :=
    (runs_bind x.run (fun r => Prog.ret (r.mapError f)) trace (.ok b)).mp h
  cases r with
  | error e => cases hr
  | ok a =>
      cases hr
      rwa [List.append_nil]

theorem runs_ok {a : β} (h : (pure a : ExceptT ε (Prog Resp) β).run.Runs trace (.ok b)) :
    trace = [] ∧ a = b := by
  obtain ⟨rfl, h⟩ := h
  exact ⟨rfl, Except.ok.inj h⟩

end Successes

-- A call of a sequence whose first part makes none of the kind is one of what follows, and the first
-- part succeeded before it.
theorem runs_try_past {x : ExceptT ε (Prog Resp) α} {f : α → ExceptT ε (Prog Resp) β}
    {before after : Trace Resp} {e : Event Resp} {b : Except ε β}
    (h : (x >>= f).run.Runs (before ++ e :: after) b) (hx : x.run.Uses fun c => c ≠ e.1) :
    ∃ first a mid, before = first ++ mid ∧ x.run.Runs first (.ok a) ∧
      (f a).run.Runs (mid ++ e :: after) b := by
  rw [ExceptT.run_bind] at h
  obtain ⟨first, r, rest, hsplit, hfirst, hrest⟩ := (runs_bind _ _ _ _).mp h
  obtain ⟨mid, rfl, rfl⟩ : ∃ mid, before = first ++ mid ∧ rest = mid ++ e :: after := by
    rcases List.append_eq_append_iff.mp hsplit with ⟨mid, rfl, hafter⟩ | ⟨mid, hbefore, hafter⟩
    · cases mid with
      | nil => exact ⟨[], by simp, hafter.symm⟩
      | cons e' mid =>
          obtain ⟨rfl, -⟩ := List.cons.inj hafter
          exact absurd rfl (hx.mem hfirst _ (List.mem_append_right _ List.mem_cons_self))
    · exact ⟨mid, hbefore, hafter⟩
  cases r with
  | error err => exact absurd hrest.1 (by simp)
  | ok a => exact ⟨first, a, mid, rfl, hfirst, hrest⟩

variable {Q : Cmd → Prop}

theorem uses_try {x : ExceptT ε (Prog Resp) α} {f : α → ExceptT ε (Prog Resp) β} (hx : x.run.Uses Q)
    (hf : ∀ a, (f a).run.Uses Q) : (x >>= f).run.Uses Q := by
  rw [ExceptT.run_bind]
  refine hx.bind ?_
  rintro (e | a)
  · trivial
  · exact hf a

-- What follows need only be looked at for what a run can bring.
theorem uses_try_runs {x : ExceptT ε (Prog Resp) α} {f : α → ExceptT ε (Prog Resp) β}
    (hx : x.run.Uses Q) (hf : ∀ trace a, x.run.Runs trace (.ok a) → (f a).run.Uses Q) :
    (x >>= f).run.Uses Q := by
  rw [ExceptT.run_bind]
  refine hx.bind_runs ?_
  rintro trace (e | a) h
  · trivial
  · exact hf trace a h

theorem uses_lift_ok {x : Except ε α} {f : α → ExceptT ε (Prog Resp) β}
    (hf : ∀ a, x = .ok a → (f a).run.Uses Q) : (liftM x >>= f).run.Uses Q := by
  cases x with
  | error e => trivial
  | ok a => exact hf a rfl

theorem uses_lift_bind {x : Except ε α} {f : α → ExceptT ε (Prog Resp) β}
    (hf : ∀ a, (f a).run.Uses Q) : (liftM x >>= f).run.Uses Q := uses_lift_ok fun a _ => hf a

theorem uses_adapt {ε' : Type} {x : ExceptT ε (Prog Resp) α} {f : ε → ε'} (hx : x.run.Uses Q) :
    (ExceptT.adapt f x).run.Uses Q := by
  change (x.run >>= fun r => Prog.ret (r.mapError f)).Uses Q
  exact hx.bind fun _ => trivial

end Fallible

section Expand

variable {Cmd' : Type} {Resp' : Cmd' → Type} {impl : (c : Cmd) → Prog Resp' (Resp c)}

-- The runs of the programs of the calls of a run, one after the other.
def Carried (impl : (c : Cmd) → Prog Resp' (Resp c)) : Trace Resp → Trace Resp' → Prop
  | [], trace => trace = []
  | ⟨c, r⟩ :: calls, trace =>
      ∃ first rest, trace = first ++ rest ∧ (impl c).Runs first r ∧ Carried impl calls rest

theorem runs_expand (p : Prog Resp α) (trace : Trace Resp') (a : α) :
    (p.expand impl).Runs trace a ↔ ∃ calls, p.Runs calls a ∧ Carried impl calls trace := by
  induction p generalizing trace with
  | ret b =>
      constructor
      · rintro ⟨rfl, rfl⟩
        exact ⟨[], ⟨rfl, rfl⟩, rfl⟩
      · rintro ⟨_, ⟨rfl, rfl⟩, rfl⟩
        exact ⟨rfl, rfl⟩
  | call c k ih =>
      rw [expand, runs_bind]
      constructor
      · rintro ⟨first, r, rest, rfl, hfirst, hrest⟩
        obtain ⟨calls, hcalls, hcarried⟩ := (ih r rest).mp hrest
        exact ⟨⟨c, r⟩ :: calls, ⟨r, calls, rfl, hcalls⟩, first, rest, rfl, hfirst, hcarried⟩
      · rintro ⟨_, ⟨r, calls, rfl, hcalls⟩, first, rest, rfl, hfirst, hcarried⟩
        exact ⟨first, r, rest, rfl, hfirst, (ih r rest).mpr ⟨calls, hcalls, hcarried⟩⟩

theorem uses_any (p : Prog Resp α) : p.Uses fun _ => True := by
  induction p with
  | ret a => trivial
  | call c k ih => exact ⟨trivial, ih⟩

theorem uses_expand {Q : Cmd → Prop} {Q' : Cmd' → Prop} {p : Prog Resp α} (hp : p.Uses Q)
    (himpl : ∀ c, Q c → (impl c).Uses Q') : (p.expand impl).Uses Q' := by
  induction p with
  | ret a => trivial
  | call c k ih => exact (himpl c hp.1).bind fun r => ih r (hp.2 r)

-- Only the programs of the calls that are made matter.
theorem expand_congr {impl' : (c : Cmd) → Prog Resp' (Resp c)} {Q : Cmd → Prop} {p : Prog Resp α}
    (hp : p.Uses Q) (himpl : ∀ c, Q c → impl c = impl' c) : p.expand impl = p.expand impl' := by
  induction p with
  | ret a => rfl
  | call c k ih =>
      have hk : (fun r => (k r).expand impl) = fun r => (k r).expand impl' :=
        funext fun r => ih r (hp.2 r)
      rw [expand, expand, himpl c hp.1, hk]

theorem Carried.split {before after : Trace Resp} {c : Cmd} {r : Resp c} {trace : Trace Resp'}
    (h : Carried impl (before ++ ⟨c, r⟩ :: after) trace) :
    ∃ first mid rest, trace = first ++ mid ++ rest ∧ Carried impl before first ∧
      (impl c).Runs mid r ∧ Carried impl after rest := by
  induction before generalizing trace with
  | nil =>
      obtain ⟨mid, rest, rfl, hmid, hrest⟩ := h
      exact ⟨[], mid, rest, rfl, rfl, hmid, hrest⟩
  | cons e before ih =>
      obtain ⟨first, rest, rfl, hfirst, hrest⟩ := h
      obtain ⟨first', mid, rest', rfl, hbefore, hmid, hafter⟩ := ih hrest
      exact ⟨first ++ first', mid, rest', by simp, ⟨first, first', rfl, hfirst, hbefore⟩, hmid, hafter⟩

-- A call of the run that carries the calls out is made by the program of one of them.
theorem Carried.find {calls : Trace Resp} {before after : Trace Resp'} {e : Event Resp'}
    (h : Carried impl calls (before ++ e :: after)) :
    ∃ earlier c r later first mid mid' rest, calls = earlier ++ ⟨c, r⟩ :: later ∧
      before = first ++ mid ∧ after = mid' ++ rest ∧ Carried impl earlier first ∧
      (impl c).Runs (mid ++ e :: mid') r ∧ Carried impl later rest := by
  induction calls generalizing before with
  | nil => exact absurd h (by simp [Carried])
  | cons call calls ih =>
      obtain ⟨run, rest, hsplit, hrun, hrest⟩ := h
      rcases List.append_eq_append_iff.mp hsplit with ⟨mid, rfl, hlater⟩ | ⟨mid, rfl, hlater⟩
      · cases mid with
        | nil =>
            obtain rfl : rest = e :: after := by simpa using hlater.symm
            obtain ⟨earlier, c, r, later, first, mid, mid', rest, rfl, hbefore, rfl, hearlier, hmid,
              hlast⟩ := @ih [] hrest
            obtain ⟨rfl, rfl⟩ := List.append_eq_nil_iff.mp hbefore.symm
            rw [List.append_nil] at hrun
            exact ⟨call :: earlier, c, r, later, before, [], mid', rest, rfl, by simp, rfl,
              ⟨before, [], by simp, hrun, hearlier⟩, hmid, hlast⟩
        | cons e' mid =>
            obtain ⟨rfl, rfl⟩ := List.cons.inj hlater
            exact ⟨[], call.1, call.2, calls, [], before, mid, rest, rfl, rfl, rfl, rfl, hrun, hrest⟩
      · subst hlater
        obtain ⟨earlier, c, r, later, first, mid', mid'', rest, rfl, rfl, rfl, hearlier, hmid,
          hlast⟩ := ih hrest
        exact ⟨call :: earlier, c, r, later, run ++ first, mid', mid'', rest, rfl, by simp, rfl,
          ⟨run, first, rfl, hrun, hearlier⟩, hmid, hlast⟩

end Expand

section ExpandWith

variable {τ κ : Type} {Cmd' : Type} {Resp' : Cmd' → Type}

-- Each call carried out by a program that has a state of its own from one call to the next.
def expand_with (impl : τ → (c : Cmd) → Prog Resp' (Resp c × τ)) : Prog Resp α → τ → Prog Resp' (α × τ)
  | .ret a, t => .ret (a, t)
  | .call c k, t => impl t c >>= fun r => (k r.1).expand_with impl r.2

-- Simulation, with the state of the calls' programs in the relation.
theorem wp_expand_with {P : Protocol Resp' σ} {H : Protocol Resp κ} {related : κ → τ → σ → Prop}
    {impl : τ → (c : Cmd) → Prog Resp' (Resp c × τ)}
    (himpl : ∀ u t s c, related u t s → H.allows u c →
      (impl t c).wp P (fun r s' => ∃ u', H.step u c r.1 u' ∧ related u' r.2 s') s)
    {p : Prog Resp α} {post : α → κ → Prop} {u : κ} {t : τ} {s : σ} (hp : p.wp H post u)
    (hs : related u t s) :
    (p.expand_with impl t).wp P (fun a s' => ∃ u', post a.1 u' ∧ related u' a.2 s') s := by
  induction p generalizing u t s with
  | ret a => exact ⟨u, hp, hs⟩
  | call c k ih =>
      apply wp_seq (himpl u t s c hs hp.1)
      rintro r s' ⟨u', hstep, hs'⟩
      exact ih r.1 (hp.2 r.1 u' hstep) hs'

end ExpandWith

section Both

variable {Cmd' : Type} {Resp' : Cmd' → Type}

-- Two interfaces side by side.
abbrev Both (Resp : Cmd → Type) (Resp' : Cmd' → Type) : Cmd ⊕ Cmd' → Type := Sum.elim Resp Resp'

-- A program over the second of them.
def inner (p : Prog Resp' α) : Prog (Both Resp Resp') α := p.expand fun c => perform (.inr c)

-- A program over the first of them.
def outer (p : Prog Resp α) : Prog (Both Resp Resp') α := p.expand fun c => perform (.inl c)

-- Where the calls of one interface do over both what they do over it alone.
theorem wp_outer {P : Protocol (Both Resp Resp') σ} {Q : Protocol Resp σ}
    (hallows : ∀ s c, Q.allows s c → P.allows s (.inl c))
    (hstep : ∀ s c r s', P.step s (.inl c) r s' → Q.step s c r s') {p : Prog Resp α}
    {post : α → σ → Prop} {s : σ} (hp : p.wp Q post s) : (outer p).wp P post s := by
  have himpl : ∀ t s c, t = s → Q.allows t c →
      (Prog.call (Sum.inl c) .ret : Prog (Both Resp Resp') (Resp c)).wp P
        (fun r s' => ∃ t', Q.step t c r t' ∧ t' = s') s := by
    rintro t _ c rfl hc
    exact ⟨hallows t c hc, fun r s' h => ⟨s', hstep t c r s' h, rfl⟩⟩
  refine wp_mono (wp_expand himpl hp rfl) ?_
  rintro a _ ⟨t, ha, rfl⟩
  exact ha

theorem wp_inner {P : Protocol (Both Resp Resp') σ} {Q : Protocol Resp' σ}
    (hallows : ∀ s c, Q.allows s c → P.allows s (.inr c))
    (hstep : ∀ s c r s', P.step s (.inr c) r s' → Q.step s c r s') {p : Prog Resp' α}
    {post : α → σ → Prop} {s : σ} (hp : p.wp Q post s) : (inner p).wp P post s := by
  have himpl : ∀ t s c, t = s → Q.allows t c →
      (Prog.call (Sum.inr c) .ret : Prog (Both Resp Resp') (Resp' c)).wp P
        (fun r s' => ∃ t', Q.step t c r t' ∧ t' = s') s := by
    rintro t _ c rfl hc
    exact ⟨hallows t c hc, fun r s' h => ⟨s', hstep t c r s' h, rfl⟩⟩
  refine wp_mono (wp_expand himpl hp rfl) ?_
  rintro a _ ⟨t, ha, rfl⟩
  exact ha

-- What a run did over the second.
def Trace.inner : Trace (Both Resp Resp') → Trace Resp'
  | [] => []
  | ⟨.inl _, _⟩ :: rest => Trace.inner rest
  | ⟨.inr c, r⟩ :: rest => ⟨c, r⟩ :: Trace.inner rest

theorem Trace.inner_append (first rest : Trace (Both Resp Resp')) :
    Trace.inner (first ++ rest) = Trace.inner first ++ Trace.inner rest := by
  induction first with
  | nil => rfl
  | cons e first ih =>
      obtain ⟨c | c, r⟩ := e
      · exact ih
      · exact congrArg (⟨c, r⟩ :: ·) ih

theorem runs_inner {p : Prog Resp' α} {trace : Trace (Both Resp Resp')} {a : α}
    (h : (inner p : Prog (Both Resp Resp') α).Runs trace a) :
    p.Runs (Trace.inner trace) a ∧ ∀ e ∈ trace, e.1.isRight := by
  obtain ⟨calls, hcalls, hcarried⟩ := (runs_expand p trace a).mp h
  suffices hsame : Trace.inner trace = calls ∧ ∀ e ∈ trace, e.1.isRight from
    ⟨hsame.1.symm ▸ hcalls, hsame.2⟩
  clear hcalls h
  induction calls generalizing trace with
  | nil =>
      obtain rfl := hcarried
      exact ⟨rfl, List.forall_mem_nil _⟩
  | cons e calls ih =>
      obtain ⟨first, rest, rfl, hfirst, hrest⟩ := hcarried
      obtain rfl : first = [⟨.inr e.1, e.2⟩] := (runs_perform _ _ _).mp hfirst
      exact ⟨congrArg (e :: ·) (ih hrest).1, List.forall_mem_cons.mpr ⟨rfl, (ih hrest).2⟩⟩

theorem uses_outer {Q : Cmd → Prop} {Q' : Cmd ⊕ Cmd' → Prop} {p : Prog Resp α} (hp : p.Uses Q)
    (h : ∀ c, Q c → Q' (.inl c)) : (outer p : Prog (Both Resp Resp') α).Uses Q' :=
  uses_expand hp fun c hc => ⟨h c hc, fun _ => trivial⟩

theorem uses_inner {Q : Cmd' → Prop} {Q' : Cmd ⊕ Cmd' → Prop} {p : Prog Resp' α} (hp : p.Uses Q)
    (h : ∀ c, Q c → Q' (.inr c)) : (inner p : Prog (Both Resp Resp') α).Uses Q' :=
  uses_expand hp fun c hc => ⟨h c hc, fun _ => trivial⟩

theorem uses_outer_left (p : Prog Resp α) :
    (outer p : Prog (Both Resp Resp') α).Uses fun c => c.isLeft = true :=
  uses_outer (uses_any p) fun _ _ => rfl

-- The runs of a program over the first.
theorem runs_outer_eq {p : Prog Resp α} {trace : Trace (Both Resp Resp')} {a : α}
    (h : (outer p : Prog (Both Resp Resp') α).Runs trace a) :
    ∃ calls, p.Runs calls a ∧ trace = calls.map fun e => ⟨.inl e.1, e.2⟩ := by
  obtain ⟨calls, hcalls, hcarried⟩ := (runs_expand p trace a).mp h
  refine ⟨calls, hcalls, ?_⟩
  clear hcalls h
  induction calls generalizing trace with
  | nil => exact hcarried
  | cons e calls ih =>
      obtain ⟨first, rest, rfl, hfirst, hrest⟩ := hcarried
      obtain rfl : first = [⟨.inl e.1, e.2⟩] := (runs_perform _ _ _).mp hfirst
      rw [ih hrest]
      rfl

theorem runs_outer {p : Prog Resp α} {trace : Trace (Both Resp Resp')} {a : α}
    (h : (outer p : Prog (Both Resp Resp') α).Runs trace a) :
    ∃ calls, p.Runs calls a ∧ ∀ e ∈ calls, ⟨.inl e.1, e.2⟩ ∈ trace := by
  obtain ⟨calls, hcalls, rfl⟩ := runs_outer_eq h
  exact ⟨calls, hcalls, fun e he => List.mem_map_of_mem he⟩

theorem Trace.inner_of_left {trace : Trace (Both Resp Resp')} (h : ∀ e ∈ trace, e.1.isLeft) :
    Trace.inner trace = [] := by
  induction trace with
  | nil => rfl
  | cons e trace ih =>
      obtain ⟨hleft, hrest⟩ := List.forall_mem_cons.mp h
      obtain ⟨c | c, r⟩ := e
      · exact ih hrest
      · cases hleft

end Both

section Refine

variable {Cmd' : Type} {Resp' : Cmd' → Type} {hidden : Cmd' → Bool} {c : Cmd'} {γ δ : Type}

-- What a run shows when the calls of a kind are hidden.
def Trace.shown (hidden : Cmd → Bool) (trace : Trace Resp) : Trace Resp :=
  trace.filter fun e => !hidden e.1

-- Every run of the program over both interfaces is, over the second, a run of the other program
-- as far as it shows, and what the two return is related.
def RefinesBy (hidden : Cmd' → Bool) (related : α → γ → Prop) (p : Prog (Both Resp Resp') α)
    (q : Prog Resp' γ) : Prop :=
  ∀ trace a, p.Runs trace a → ∃ coarse c, q.Runs coarse c ∧ related a c ∧
    coarse.shown hidden = (Trace.inner trace).shown hidden

-- The two return the same.
abbrev Refines (hidden : Cmd' → Bool) (p : Prog (Both Resp Resp') α) (q : Prog Resp' α) : Prop :=
  RefinesBy hidden Eq p q

theorem refines_inner (p : Prog Resp' α) : Refines hidden (inner p : Prog (Both Resp Resp') α) p :=
  fun trace a h => ⟨Trace.inner trace, a, (runs_inner h).1, rfl, rfl⟩

theorem refines_ret {related : α → γ → Prop} {a : α} {c : γ} (h : related a c) :
    RefinesBy hidden related (.ret a : Prog (Both Resp Resp') α) (.ret c : Prog Resp' γ) := by
  rintro _ _ ⟨rfl, rfl⟩
  exact ⟨[], c, ⟨rfl, rfl⟩, h, rfl⟩

theorem RefinesBy.bind {related : α → γ → Prop} {related' : β → δ → Prop}
    {p : Prog (Both Resp Resp') α} {q : Prog Resp' γ} {f : α → Prog (Both Resp Resp') β}
    {g : γ → Prog Resp' δ} (hp : RefinesBy hidden related p q)
    (hf : ∀ a c, related a c → RefinesBy hidden related' (f a) (g c)) :
    RefinesBy hidden related' (p >>= f) (q >>= g) := by
  intro trace b h
  obtain ⟨first, a, rest, rfl, hfirst, hrest⟩ := (runs_bind p f trace b).mp h
  obtain ⟨coarse, c, hcoarse, hrelated, hshown⟩ := hp first a hfirst
  obtain ⟨coarse', d, hcoarse', hrelated', hshown'⟩ := hf a c hrelated rest b hrest
  refine ⟨coarse ++ coarse', d, (runs_bind q g _ d).mpr ⟨_, c, _, rfl, hcoarse, hcoarse'⟩,
    hrelated', ?_⟩
  rw [Trace.inner_append, Trace.shown, Trace.shown, List.filter_append, List.filter_append]
  exact congrArg₂ (· ++ ·) hshown hshown'

theorem Refines.bind {related : β → δ → Prop} {p : Prog (Both Resp Resp') α} {q : Prog Resp' α}
    {f : α → Prog (Both Resp Resp') β} {g : α → Prog Resp' δ} (hp : Refines hidden p q)
    (hf : ∀ a, RefinesBy hidden related (f a) (g a)) : RefinesBy hidden related (p >>= f) (q >>= g) := by
  refine RefinesBy.bind hp ?_
  rintro a _ rfl
  exact hf a

-- A program over the first interface stands for a hidden call.
theorem refines_hidden (hc : hidden c = true) (p : Prog Resp α) (f : α → Resp' c) :
    RefinesBy hidden (fun a r => f a = r) (outer p : Prog (Both Resp Resp') α) (perform c) := by
  intro trace a h
  refine ⟨[⟨c, f a⟩], f a, (runs_perform c _ _).mpr rfl, rfl, ?_⟩
  rw [Trace.inner_of_left ((uses_outer_left p).mem h), Trace.shown,
    List.filter_cons_of_neg (by simp [hc])]
  rfl

end Refine

end Prog
