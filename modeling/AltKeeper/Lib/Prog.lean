import Mathlib.Logic.Function.Basic
import Mathlib.Control.Basic
import Mathlib.Data.Set.Defs

-- A program over an interface of commands: it either returns a value or calls a command
-- and goes on with the response. What a command does is left to whoever runs the program.
inductive Prog {Cmd : Type} (Resp : Cmd → Type) (α : Type) where
  | ret (value : α)
  | call (cmd : Cmd) (next : Resp cmd → Prog Resp α)

namespace Prog

variable {Cmd : Type} {Resp : Cmd → Type} {α β γ σ : Type}

protected def bind : Prog Resp α → (α → Prog Resp β) → Prog Resp β
  | .ret a, f => f a
  | .call c k, f => .call c fun r => (k r).bind f

instance : Monad (Prog Resp) where
  pure := .ret
  bind := Prog.bind

def perform (c : Cmd) : Prog Resp (Resp c) := .call c .ret

@[simp] theorem pure_eq (a : α) : (pure a : Prog Resp α) = .ret a := rfl

@[simp] theorem ret_bind (a : α) (f : α → Prog Resp β) : (Prog.ret a >>= f) = f a := rfl

@[simp] theorem call_bind (c : Cmd) (k : Resp c → Prog Resp α) (f : α → Prog Resp β) :
    (Prog.call c k >>= f) = .call c fun r => k r >>= f := rfl

@[simp] theorem perform_bind (c : Cmd) (f : Resp c → Prog Resp β) :
    (perform c >>= f) = .call c f := rfl

theorem bind_ret (p : Prog Resp α) : (p >>= Prog.ret) = p := by
  induction p with
  | ret a => rfl
  | call c k ih => exact congrArg (Prog.call c) (funext ih)

theorem bind_bind (p : Prog Resp α) (f : α → Prog Resp β) (g : β → Prog Resp γ) :
    ((p >>= f) >>= g) = p >>= fun a => f a >>= g := by
  induction p with
  | ret a => rfl
  | call c k ih => exact congrArg (Prog.call c) (funext ih)

instance : LawfulMonad (Prog Resp) :=
  LawfulMonad.mk' (Prog Resp) bind_ret (fun _ _ => rfl) bind_bind

-- One call with its response, and what a program did: its calls in order.
abbrev Event (Resp : Cmd → Type) := (c : Cmd) × Resp c

abbrev Trace (Resp : Cmd → Type) := List (Event Resp)

-- What passes over the calls of a kind passes over a part of a trace that is made of them.
theorem Trace.skip {φ : Type*} (f : Trace Resp → φ) (passed : Cmd → Prop)
    (hstep : ∀ c r rest, passed c → f (⟨c, r⟩ :: rest) = f rest) {first : Trace Resp}
    (h : ∀ e ∈ first, passed e.1) (rest : Trace Resp) : f (first ++ rest) = f rest := by
  induction first with
  | nil => rfl
  | cons e first ih =>
      rw [List.cons_append, hstep e.1 e.2 _ (h e List.mem_cons_self)]
      exact ih fun e' he' => h e' (List.mem_cons_of_mem _ he')

theorem Trace.skip_all {φ : Type*} (f : Trace Resp → φ) (passed : Cmd → Prop)
    (hstep : ∀ c r rest, passed c → f (⟨c, r⟩ :: rest) = f rest) {trace : Trace Resp}
    (h : ∀ e ∈ trace, passed e.1) : f trace = f [] := by
  have hskip := Trace.skip f passed hstep h []
  rwa [List.append_nil] at hskip

section Runs

-- A complete run: the calls made, with any responses, and the value returned.
def Runs : Prog Resp α → Trace Resp → α → Prop
  | .ret a, trace, b => trace = [] ∧ a = b
  | .call c k, trace, b => ∃ r rest, trace = ⟨c, r⟩ :: rest ∧ (k r).Runs rest b

@[simp] theorem runs_ret (a b : α) (trace : Trace Resp) :
    (Prog.ret a).Runs trace b ↔ trace = [] ∧ a = b := Iff.rfl

@[simp] theorem runs_perform (c : Cmd) (trace : Trace Resp) (b : Resp c) :
    (perform c).Runs trace b ↔ trace = [⟨c, b⟩] := by
  constructor
  · rintro ⟨r, rest, rfl, rfl, rfl⟩
    rfl
  · rintro rfl
    exact ⟨b, [], rfl, rfl, rfl⟩

@[simp] theorem runs_call (c : Cmd) (k : Resp c → Prog Resp α) (trace : Trace Resp) (b : α) :
    (Prog.call c k).Runs trace b ↔ ∃ r rest, trace = ⟨c, r⟩ :: rest ∧ (k r).Runs rest b := Iff.rfl

theorem runs_perform_bind (c : Cmd) (f : Resp c → Prog Resp β) (trace : Trace Resp) (b : β) :
    (perform c >>= f).Runs trace b ↔ ∃ r rest, trace = ⟨c, r⟩ :: rest ∧ (f r).Runs rest b := Iff.rfl

theorem runs_bind (p : Prog Resp α) (f : α → Prog Resp β) (trace : Trace Resp) (b : β) :
    (p >>= f).Runs trace b ↔ ∃ first a rest, trace = first ++ rest ∧ p.Runs first a ∧ (f a).Runs rest b := by
  induction p generalizing trace with
  | ret a =>
      constructor
      · exact fun h => ⟨[], a, trace, rfl, ⟨rfl, rfl⟩, h⟩
      · rintro ⟨first, _, rest, rfl, ⟨rfl, rfl⟩, h⟩
        exact h
  | call c k ih =>
      constructor
      · rintro ⟨r, tail, rfl, h⟩
        obtain ⟨first, a, rest, rfl, hp, hf⟩ := (ih r tail).mp h
        exact ⟨⟨c, r⟩ :: first, a, rest, rfl, ⟨r, first, rfl, hp⟩, hf⟩
      · rintro ⟨_, a, rest, rfl, ⟨r, first, rfl, hp⟩, hf⟩
        exact ⟨r, first ++ rest, rfl, (ih r _).mpr ⟨first, a, rest, rfl, hp, hf⟩⟩

-- The run in which `answer` gives the responses, from a state it may change.
def exec (answer : σ → (c : Cmd) → Resp c × σ) : Prog Resp α → σ → Trace Resp × α
  | .ret a, _ => ([], a)
  | .call c k, s =>
      let r := answer s c
      let rest := (k r.1).exec answer r.2
      (⟨c, r.1⟩ :: rest.1, rest.2)

theorem runs_exec (answer : σ → (c : Cmd) → Resp c × σ) (p : Prog Resp α) (s : σ) :
    p.Runs (p.exec answer s).1 (p.exec answer s).2 := by
  induction p generalizing s with
  | ret a => exact ⟨rfl, rfl⟩
  | call c k ih => exact ⟨_, _, rfl, ih _ _⟩

theorem exec_mem (answer : σ → (c : Cmd) → Resp c × σ) (p : Prog Resp α) (s : σ) :
    ∀ e ∈ (p.exec answer s).1, ∃ s', e.2 = (answer s' e.1).1 := by
  induction p generalizing s with
  | ret a => exact List.forall_mem_nil _
  | call c k ih => exact List.forall_mem_cons.mpr ⟨⟨s, rfl⟩, ih _ _⟩

end Runs

section Uses

-- Every command the program can call is one of `P`.
def Uses (P : Cmd → Prop) : Prog Resp α → Prop
  | .ret _ => True
  | .call c k => P c ∧ ∀ r, (k r).Uses P

@[simp] theorem uses_ret (P : Cmd → Prop) (a : α) : (Prog.ret a : Prog Resp α).Uses P := trivial

@[simp] theorem uses_call (P : Cmd → Prop) (c : Cmd) (k : Resp c → Prog Resp α) :
    (Prog.call c k).Uses P ↔ P c ∧ ∀ r, (k r).Uses P := Iff.rfl

theorem Uses.perform_bind {P : Cmd → Prop} {c : Cmd} {f : Resp c → Prog Resp β} (hc : P c)
    (hf : ∀ r, (f r).Uses P) : (perform c >>= f).Uses P := ⟨hc, hf⟩

theorem Uses.bind {P : Cmd → Prop} {p : Prog Resp α} {f : α → Prog Resp β}
    (hp : p.Uses P) (hf : ∀ a, (f a).Uses P) : (p >>= f).Uses P := by
  induction p with
  | ret a => exact hf a
  | call c k ih => exact ⟨hp.1, fun r => ih r (hp.2 r)⟩

theorem Uses.mono {P Q : Cmd → Prop} {p : Prog Resp α} (hp : p.Uses P) (h : ∀ c, P c → Q c) :
    p.Uses Q := by
  induction p with
  | ret a => trivial
  | call c k ih => exact ⟨h c hp.1, fun r => ih r (hp.2 r)⟩

theorem Uses.mem {P : Cmd → Prop} {p : Prog Resp α} (hp : p.Uses P) {trace : Trace Resp} {a : α}
    (h : p.Runs trace a) : ∀ e ∈ trace, P e.1 := by
  induction p generalizing trace with
  | ret b =>
      obtain ⟨rfl, -⟩ := h
      simp
  | call c k ih =>
      obtain ⟨r, rest, rfl, h⟩ := h
      intro e he
      rcases List.mem_cons.mp he with rfl | he
      · exact hp.1
      · exact ih r (hp.2 r) h e he

end Uses

-- What a party may call in each of its states, and the states a call can lead to.
structure Protocol (Resp : Cmd → Type) (σ : Type) where
  allows : σ → Cmd → Prop
  step : σ → (c : Cmd) → Resp c → σ → Prop

section Wp

variable {P : Protocol Resp σ}

-- Weakest precondition: from `s` every call is allowed, and whatever is answered the
-- value returned and the state reached satisfy `post`.
def wp (P : Protocol Resp σ) : Prog Resp α → (α → σ → Prop) → σ → Prop
  | .ret a, post, s => post a s
  | .call c k, post, s => P.allows s c ∧ ∀ r s', P.step s c r s' → (k r).wp P post s'

@[simp] theorem wp_ret (a : α) (post : α → σ → Prop) (s : σ) :
    (Prog.ret a : Prog Resp α).wp P post s = post a s := rfl

@[simp] theorem wp_call (c : Cmd) (k : Resp c → Prog Resp α) (post : α → σ → Prop) (s : σ) :
    (Prog.call c k).wp P post s ↔ P.allows s c ∧ ∀ r s', P.step s c r s' → (k r).wp P post s' :=
  Iff.rfl

@[simp] theorem wp_perform (c : Cmd) (post : Resp c → σ → Prop) (s : σ) :
    (perform c).wp P post s ↔ P.allows s c ∧ ∀ r s', P.step s c r s' → post r s' := Iff.rfl

theorem wp_bind (p : Prog Resp α) (f : α → Prog Resp β) (post : β → σ → Prop) (s : σ) :
    (p >>= f).wp P post s ↔ p.wp P (fun a => (f a).wp P post) s := by
  induction p generalizing s with
  | ret a => rfl
  | call c k ih =>
      simp only [call_bind, wp_call]
      exact and_congr_right fun _ => forall_congr' fun r => forall_congr' fun s' =>
        imp_congr_right fun _ => ih r s'

theorem wp_mono {p : Prog Resp α} {post post' : α → σ → Prop} {s : σ}
    (hp : p.wp P post s) (h : ∀ a s', post a s' → post' a s') : p.wp P post' s := by
  induction p generalizing s with
  | ret a => exact h a s hp
  | call c k ih => exact ⟨hp.1, fun r s' hs => ih r (hp.2 r s' hs)⟩

-- Sequencing with a named middle condition.
theorem wp_seq {p : Prog Resp α} {f : α → Prog Resp β} {mid : α → σ → Prop}
    {post : β → σ → Prop} {s : σ} (hp : p.wp P mid s)
    (hf : ∀ a s', mid a s' → (f a).wp P post s') : (p >>= f).wp P post s :=
  (wp_bind p f post s).mpr (wp_mono hp hf)

-- What every allowed call keeps holds after the program too.
theorem wp_and_keep {keep : σ → Prop}
    (hkeep : ∀ s c r s', keep s → P.allows s c → P.step s c r s' → keep s') {p : Prog Resp α}
    {post : α → σ → Prop} {s : σ} (hp : p.wp P post s) (hs : keep s) :
    p.wp P (fun a s' => post a s' ∧ keep s') s := by
  induction p generalizing s with
  | ret a => exact ⟨hp, hs⟩
  | call c k ih => exact ⟨hp.1, fun r s' h => ih r (hp.2 r s' h) (hkeep s c r s' hs hp.1 h)⟩

-- A program whose commands keep `keep` can be run wherever it holds.
theorem wp_of_uses_keep {Q : Cmd → Prop} {keep : σ → Prop} {p : Prog Resp α} {s : σ} (hp : p.Uses Q)
    (hq : ∀ s c, keep s → Q c → P.allows s c ∧ ∀ r s', P.step s c r s' → keep s') (hs : keep s) :
    p.wp P (fun _ s' => keep s') s := by
  induction p generalizing s with
  | ret a => exact hs
  | call c k ih =>
      obtain ⟨ha, hnext⟩ := hq s c hs hp.1
      exact ⟨ha, fun r s' h => ih r (hp.2 r) (hnext r s' h)⟩

-- Commands that are allowed in `s` and leave the party there can be called freely.
theorem wp_of_uses {Q : Cmd → Prop} {p : Prog Resp α} {s : σ} (hp : p.Uses Q)
    (hq : ∀ c, Q c → P.allows s c ∧ ∀ r s', P.step s c r s' → s' = s) :
    p.wp P (fun _ s' => s' = s) s := by
  refine wp_of_uses_keep hp (fun t c ht hc => ?_) rfl
  rw [ht]
  exact hq c hc

-- What holds after a program holds in the state that its run leads to.
theorem wp_runs {advance : σ → Event Resp → σ}
    (hstep : ∀ s (e : Event Resp), P.step s e.1 e.2 (advance s e)) {p : Prog Resp α}
    {post : α → σ → Prop} {s : σ} (hp : p.wp P post s) {trace : Trace Resp} {a : α}
    (h : p.Runs trace a) : post a (trace.foldl advance s) := by
  induction p generalizing s trace with
  | ret b =>
      obtain ⟨rfl, rfl⟩ := h
      exact hp
  | call c k ih =>
      obtain ⟨r, rest, rfl, h⟩ := h
      exact ih r (hp.2 r _ (hstep s ⟨c, r⟩)) h

-- The same protocol with fewer commands.
def Protocol.restrict (P : Protocol Resp σ) (Q : Set Cmd) : Protocol Resp σ where
  allows s c := P.allows s c ∧ c ∈ Q
  step := P.step

theorem wp_restrict_mono {Q Q' : Set Cmd} {p : Prog Resp α} {post : α → σ → Prop} {s : σ}
    (h : Q ⊆ Q') (hp : p.wp (P.restrict Q) post s) : p.wp (P.restrict Q') post s := by
  induction p generalizing s with
  | ret a => exact hp
  | call c k ih => exact ⟨⟨hp.1.1, h hp.1.2⟩, fun r s' hs => ih r (hp.2 r s' hs)⟩

theorem wp_of_restrict {Q : Set Cmd} {p : Prog Resp α} {post : α → σ → Prop} {s : σ}
    (hp : p.wp (P.restrict Q) post s) : p.wp P post s := by
  induction p generalizing s with
  | ret a => exact hp
  | call c k ih => exact ⟨hp.1.1, fun r s' hs => ih r (hp.2 r s' hs)⟩

end Wp

section Prod

variable {τ : Type}

-- Two protocols kept at once, each with its own state.
def Protocol.prod (P : Protocol Resp σ) (Q : Protocol Resp τ) : Protocol Resp (σ × τ) where
  allows s c := P.allows s.1 c ∧ Q.allows s.2 c
  step s c r s' := P.step s.1 c r s'.1 ∧ Q.step s.2 c r s'.2

theorem wp_prod {P : Protocol Resp σ} {Q : Protocol Resp τ} {p : Prog Resp α}
    {post : α → σ → Prop} {post' : α → τ → Prop} {s : σ} {t : τ} (hp : p.wp P post s)
    (hq : p.wp Q post' t) : p.wp (P.prod Q) (fun a u => post a u.1 ∧ post' a u.2) (s, t) := by
  induction p generalizing s t with
  | ret a => exact ⟨hp, hq⟩
  | call c k ih =>
      refine ⟨⟨hp.1, hq.1⟩, fun r u hu => ?_⟩
      exact ih r (hp.2 r u.1 hu.1) (hq.2 r u.2 hu.2)

end Prod

section Interrupt

-- `p`, given up without a value as soon as one of the questions `c`, asked before each of
-- its calls and before it returns, is answered with `stop`.
def interruptible (c : Cmd) (stop : Resp c → Bool) : Prog Resp α → Prog Resp (Option α)
  | .ret a => .call c fun r => if stop r then .ret none else .ret (some a)
  | .call d k => .call c fun r =>
      if stop r then .ret none else .call d fun r' => (k r').interruptible c stop

theorem Uses.interruptible {P : Cmd → Prop} {c : Cmd} {stop : Resp c → Bool} {p : Prog Resp α}
    (hp : p.Uses P) (hc : P c) : (p.interruptible c stop).Uses P := by
  induction p with
  | ret a =>
      refine ⟨hc, fun r => ?_⟩
      dsimp only
      split <;> trivial
  | call d k ih =>
      refine ⟨hc, fun r => ?_⟩
      dsimp only
      split
      · trivial
      · exact ⟨hp.1, fun r' => ih r' (hp.2 r')⟩

-- A question that may stop what follows it.
theorem wp_unless {P : Protocol Resp σ} {c : Cmd} {stop : Resp c → Bool} {p : Prog Resp (Option α)}
    {post : Option α → σ → Prop} {halt : σ → Prop} {s : σ}
    (hc : P.allows s c ∧ ∀ r s', P.step s c r s' → s' = s ∧ (stop r = true → halt s))
    (hstop : halt s → post none s) (hp : p.wp P post s) :
    (Prog.call c fun r => if stop r then .ret none else p).wp P post s := by
  refine ⟨hc.1, fun r s' h => ?_⟩
  obtain ⟨rfl, hhalt⟩ := hc.2 r s' h
  dsimp only
  by_cases hasked : stop r = true
  · rw [if_pos hasked]
    exact hstop (hhalt hasked)
  · rw [if_neg hasked]
    exact hp

-- Given up or not, what every call keeps still holds; given up, so does what `halt` asks of the
-- moment.
theorem wp_interruptible {P : Protocol Resp σ} {c : Cmd} (stop : Resp c → Bool) {p : Prog Resp α}
    {post : α → σ → Prop} {keep halt : σ → Prop} {s : σ}
    (hc : ∀ s, keep s → P.allows s c ∧
      ∀ r s', P.step s c r s' → s' = s ∧ (stop r = true → halt s))
    (hkeep : ∀ s d r s', keep s → P.allows s d → P.step s d r s' → keep s')
    (hs : keep s) (hp : p.wp P post s) :
    (p.interruptible c stop).wp P
      (fun a s' => keep s' ∧ (a = none → halt s') ∧ ∀ b, a = some b → post b s') s := by
  have hgiven : ∀ s, keep s → halt s →
      keep s ∧ ((none : Option α) = none → halt s) ∧ ∀ b, none = some b → post b s :=
    fun s hs hhalt => ⟨hs, fun _ => hhalt, by simp⟩
  induction p generalizing s with
  | ret a =>
      refine wp_unless (hc s hs) (hgiven s hs) ⟨hs, by simp, ?_⟩
      rintro b ⟨⟩
      exact hp
  | call d k ih =>
      refine wp_unless (hc s hs) (hgiven s hs) ⟨hp.1, fun r t ht => ?_⟩
      exact ih r (hkeep s d r t hs hp.1 ht) (hp.2 r t ht)

end Interrupt

section Expand

variable {τ : Type} {Cmd' : Type} {Resp' : Cmd' → Type}

-- Each call carried out by a program of its own, over any interface.
def expand (impl : (c : Cmd) → Prog Resp' (Resp c)) : Prog Resp α → Prog Resp' α
  | .ret a => .ret a
  | .call c k => impl c >>= fun r => (k r).expand impl

-- A program whose calls do nothing but what the expansion leaves as it is.
theorem expand_of_uses {impl : (c : Cmd) → Prog Resp (Resp c)} {Q : Cmd → Prop} {p : Prog Resp α}
    (hp : p.Uses Q) (himpl : ∀ c, Q c → impl c = perform c) : p.expand impl = p := by
  induction p with
  | ret a => rfl
  | call c k ih =>
      rw [expand, himpl c hp.1, perform_bind]
      exact congrArg (Prog.call c) (funext fun r => ih r (hp.2 r))

-- Simulation: where the program of each call does one step of the call's own protocol, what holds
-- of a program holds of its expansion, in states that are related.
theorem wp_expand {P : Protocol Resp' σ} {H : Protocol Resp τ} {related : τ → σ → Prop}
    {impl : (c : Cmd) → Prog Resp' (Resp c)}
    (himpl : ∀ t s c, related t s → H.allows t c →
      (impl c).wp P (fun r s' => ∃ t', H.step t c r t' ∧ related t' s') s)
    {p : Prog Resp α} {post : α → τ → Prop} {t : τ} {s : σ} (hp : p.wp H post t) (hs : related t s) :
    (p.expand impl).wp P (fun a s' => ∃ t', post a t' ∧ related t' s') s := by
  induction p generalizing t s with
  | ret a => exact ⟨t, hp, hs⟩
  | call c k ih =>
      apply wp_seq (himpl t s c hs hp.1)
      rintro r s' ⟨t', hstep, hs'⟩
      exact ih r (hp.2 r t' hstep) hs'

end Expand

end Prog
