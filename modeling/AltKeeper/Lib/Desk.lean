import Mathlib.Data.List.Nodup
import Mathlib.Logic.Function.Basic

-- A desk that asks for one answer at a time, each over a channel of its own, while anybody may
-- come by and answer. A channel carries one answer at most, and none once its receiver is gone.

-- How far the request in progress has come: its channel, and then what it received.
inductive Desk.Stage (α : Type) where
  | idle
  | published (rx : Nat)
  | asking (rx : Nat)
  | answered (rx : Nat) (answer : Option α)
  | lowered (rx : Nat) (answer : Option α)
  | cleared (rx : Nat) (answer : Option α)

-- What has happened: the request in progress, the receivers that are gone, the answers sent
-- with whether they were accepted, and what the requests returned.
structure Desk.Log (α : Type) where
  pending : Option Nat := none
  dropped : List Nat := []
  sent : List (Nat × α × Bool) := []
  returned : List (Nat × Option α) := []

-- The request in progress, the sign that an answer is awaited, the sender that waits to be
-- taken, the number of channels so far, and the senders that parties have taken.
structure Desk (α Party : Type) where
  stage : Desk.Stage α := .idle
  raised : Bool := false
  slot : Option Nat := none
  count : Nat := 0
  held : Party → Option Nat := fun _ => none
  log : Desk.Log α := {}

namespace Desk

variable {α Party : Type}

namespace Stage

def request : Stage α → Option Nat
  | .idle => none
  | .published rx | .asking rx | .answered rx _ | .lowered rx _ | .cleared rx _ => some rx

-- The sign is up.
def raises : Stage α → Bool
  | .asking _ | .answered _ _ => true
  | _ => false

-- The request whose receiver is still there.
def awaits : Stage α → Option Nat
  | .published rx | .asking rx => some rx
  | _ => none

-- The request whose sender may still wait to be taken.
def offers : Stage α → Option Nat
  | .published rx | .asking rx | .answered rx _ | .lowered rx _ => some rx
  | _ => none

def received : Stage α → Option (Nat × Option α)
  | .answered rx answer | .lowered rx answer | .cleared rx answer => some (rx, answer)
  | _ => none

end Stage

namespace Log

variable (log : Log α)

def publish (rx : Nat) : Log α := { log with pending := some rx }

def receive (rx : Nat) : Log α := { log with dropped := rx :: log.dropped }

def send (tx : Nat) (answer : α) (ok : Bool) : Log α := { log with sent := (tx, answer, ok) :: log.sent }

def give (answer : Option α) : Log α :=
  match log.pending with
  | none => log
  | some rx => { log with pending := none, returned := (rx, answer) :: log.returned }

def senders : List Nat := log.sent.map Prod.fst

def Accepted (tx : Nat) (answer : α) : Prop := (tx, answer, true) ∈ log.sent

-- The answer is what was accepted on the channel, none when nothing was.
def Carries (rx : Nat) (answer : Option α) : Prop := ∀ a, answer = some a ↔ log.Accepted rx a

def carries [DecidableEq α] (rx : Nat) (answer : Option α) : Bool :=
  answer.all (fun a => (rx, a, true) ∈ log.sent) &&
    log.sent.all fun e => decide (e.1 = rx) && e.2.2 → decide (answer = some e.2.1)

end Log

section Moves

variable [DecidableEq Party]

-- What the desk does in the course of a request, and what a party does to answer it.
inductive Move : Desk α Party → Desk α Party → Prop where
  | publish {d : Desk α Party} (h : d.stage = .idle) : Move d { d with
      stage := .published d.count
      slot := some d.count
      count := d.count + 1
      log := d.log.publish d.count }
  | raise {d : Desk α Party} {rx : Nat} (h : d.stage = .published rx) :
      Move d { d with stage := .asking rx, raised := true }
  | receive {d : Desk α Party} {rx : Nat} {answer : Option α} (h : d.stage = .asking rx)
      (carries : d.log.Carries rx answer) :
      Move d { d with stage := .answered rx answer, log := d.log.receive rx }
  | lower {d : Desk α Party} {rx : Nat} {answer : Option α} (h : d.stage = .answered rx answer) :
      Move d { d with stage := .lowered rx answer, raised := false }
  | clear {d : Desk α Party} {rx : Nat} {answer : Option α} (h : d.stage = .lowered rx answer) :
      Move d { d with stage := .cleared rx answer, slot := none }
  | give {d : Desk α Party} {rx : Nat} {answer : Option α} (h : d.stage = .cleared rx answer) :
      Move d { d with stage := .idle, log := d.log.give answer }
  | take {d : Desk α Party} {p : Party} {tx : Nat} (h : d.slot = some tx) (free : d.held p = none) :
      Move d { d with slot := none, held := Function.update d.held p (some tx) }
  | send {d : Desk α Party} {p : Party} {tx : Nat} {answer : α} {ok : Bool}
      (h : d.held p = some tx) (accepts : ok = true ↔ tx ∉ d.log.dropped) :
      Move d { d with held := Function.update d.held p none, log := d.log.send tx answer ok }

end Moves

-- A sender that exists and was not used.
def Fresh (d : Desk α Party) (tx : Nat) : Prop := tx < d.count ∧ tx ∉ d.log.senders

-- Every sender is in one place, and is used once.
structure Senders (d : Desk α Party) : Prop where
  slot_fresh : ∀ tx, d.slot = some tx → d.Fresh tx
  held_fresh : ∀ p tx, d.held p = some tx → d.Fresh tx
  slot_held : ∀ p tx, d.slot = some tx → d.held p ≠ some tx
  held_once : ∀ p p' tx, d.held p = some tx → d.held p' = some tx → p = p'
  numbered : ∀ tx ∈ d.log.senders, tx < d.count
  once : d.log.senders.Nodup

-- Every request but the one in progress is over, and has returned what was accepted for it.
structure Requests (d : Desk α Party) : Prop where
  pending : d.log.pending = d.stage.request
  numbered : ∀ rx, d.stage.request = some rx → rx < d.count
  dropped : ∀ rx ∈ d.log.dropped, rx < d.count
  closed : ∀ rx < d.count, rx ∈ d.log.dropped ∨ d.stage.request = some rx
  awaits : ∀ rx, d.stage.awaits = some rx → rx ∉ d.log.dropped
  received : ∀ rx answer, d.stage.received = some (rx, answer) →
    rx ∈ d.log.dropped ∧ d.log.Carries rx answer
  returned : ∀ rx answer, (rx, answer) ∈ d.log.returned →
    rx ∈ d.log.dropped ∧ d.stage.request ≠ some rx ∧ d.log.Carries rx answer
  accepted : ∀ tx a, d.log.Accepted tx a →
    d.stage.request = some tx ∨ (tx, some a) ∈ d.log.returned
  once : (d.log.returned.map Prod.fst).Nodup
  raised : d.raised = d.stage.raises
  slot : ∀ tx, d.slot = some tx → d.stage.offers = some tx

structure Sound (d : Desk α Party) : Prop where
  senders : Senders d
  requests : Requests d

theorem Stage.request_eq_none {stage : Stage α} : stage.request = none ↔ stage = .idle := by
  cases stage <;> simp [request]

section Log

variable {log : Log α}

@[simp] theorem senders_publish (rx : Nat) : (log.publish rx).senders = log.senders := rfl

@[simp] theorem senders_receive (rx : Nat) : (log.receive rx).senders = log.senders := rfl

@[simp] theorem senders_send (tx : Nat) (answer : α) (ok : Bool) :
    (log.send tx answer ok).senders = tx :: log.senders := rfl

theorem give_eq {rx : Nat} {answer : Option α} (h : log.pending = some rx) :
    log.give answer = { log with pending := none, returned := (rx, answer) :: log.returned } := by
  unfold Log.give
  rw [h]

theorem give_of_none {answer : Option α} (h : log.pending = none) : log.give answer = log := by
  unfold Log.give
  rw [h]

@[simp] theorem senders_give (answer : Option α) : (log.give answer).senders = log.senders := by
  unfold Log.give
  split <;> rfl

theorem Log.Accepted.sender {tx : Nat} {a : α} (h : log.Accepted tx a) : tx ∈ log.senders :=
  List.mem_map_of_mem h

-- What is sent is accepted on its own channel, and only when its receiver is still there.
theorem accepted_send {tx tx' : Nat} {answer a : α} {ok : Bool} :
    (log.send tx answer ok).Accepted tx' a ↔
      (tx' = tx ∧ a = answer ∧ ok = true) ∨ log.Accepted tx' a := by
  simp [Log.Accepted, Log.send]

theorem carries_of [DecidableEq α] {rx : Nat} {answer : Option α} (h : log.carries rx answer = true) :
    log.Carries rx answer := by
  obtain ⟨hanswer, hsent⟩ := (Bool.and_eq_true _ _).mp h
  intro a
  constructor
  · rintro rfl
    exact of_decide_eq_true (p := (rx, a, true) ∈ log.sent) hanswer
  · intro haccepted
    have hreceived := List.all_eq_true.mp hsent _ haccepted
    simpa using hreceived

theorem Log.Carries.send {rx tx : Nat} {answer : Option α} {a : α} {ok : Bool}
    (h : log.Carries rx answer) (hne : ok = true → rx ≠ tx) :
    (log.send tx a ok).Carries rx answer := by
  intro b
  rw [accepted_send, h b]
  constructor
  · exact .inr
  · rintro (⟨hrx, -, hok⟩ | haccepted)
    · exact absurd hrx (hne hok)
    · exact haccepted

end Log

section Senders

variable {d d' : Desk α Party}

-- What leaves the senders where they are, or drops the one that waits.
theorem Senders.keep (h : Senders d) (hslot : ∀ tx, d'.slot = some tx → d.slot = some tx)
    (hheld : d'.held = d.held) (hcount : d'.count = d.count)
    (hsent : d'.log.senders = d.log.senders) : Senders d' := by
  have hfresh : ∀ tx, d.Fresh tx → d'.Fresh tx := by
    intro tx htx
    unfold Fresh
    rw [hcount, hsent]
    exact htx
  constructor
  · exact fun tx htx => hfresh tx (h.slot_fresh tx (hslot tx htx))
  · rw [hheld]
    exact fun p tx hp => hfresh tx (h.held_fresh p tx hp)
  · rw [hheld]
    exact fun p tx htx => h.slot_held p tx (hslot tx htx)
  · rw [hheld]
    exact h.held_once
  · rw [hsent, hcount]
    exact h.numbered
  · rw [hsent]
    exact h.once

theorem Senders.publish (h : Senders d) (hslot : d'.slot = some d.count) (hheld : d'.held = d.held)
    (hcount : d'.count = d.count + 1) (hsent : d'.log.senders = d.log.senders) : Senders d' := by
  have hnew : ∀ p, d.held p ≠ some d.count := by
    intro p hp
    have hlt := (h.held_fresh p _ hp).1
    omega
  constructor
  · intro tx htx
    obtain rfl : d.count = tx := by
      rw [hslot] at htx
      exact Option.some.inj htx
    refine ⟨by omega, fun hmem => ?_⟩
    rw [hsent] at hmem
    have hlt := h.numbered _ hmem
    omega
  · intro p tx hp
    rw [hheld] at hp
    obtain ⟨hlt, hunused⟩ := h.held_fresh p tx hp
    exact ⟨by omega, by rwa [hsent]⟩
  · intro p tx htx
    rw [hslot] at htx
    rw [hheld, ← Option.some.inj htx]
    exact hnew p
  · rw [hheld]
    exact h.held_once
  · intro tx hmem
    rw [hsent] at hmem
    have hlt := h.numbered tx hmem
    omega
  · rw [hsent]
    exact h.once

variable [DecidableEq Party]

theorem Senders.take {p : Party} {tx : Nat} (h : Senders d) (htx : d.slot = some tx) :
    Senders { d with slot := none, held := Function.update d.held p (some tx) } := by
  have hheld : ∀ p' tx', Function.update d.held p (some tx) p' = some tx' →
      (p' = p ∧ tx' = tx) ∨ (d.held p' = some tx' ∧ tx' ≠ tx) := by
    intro p' tx' hp'
    by_cases hpp : p' = p
    · rw [hpp, Function.update_self] at hp'
      exact .inl ⟨hpp, (Option.some.inj hp').symm⟩
    · rw [Function.update_of_ne hpp] at hp'
      refine .inr ⟨hp', fun hsame => ?_⟩
      rw [hsame] at hp'
      exact h.slot_held p' tx htx hp'
  constructor
  · simp
  · intro p' tx' hp'
    rcases hheld p' tx' hp' with ⟨-, rfl⟩ | ⟨hp', -⟩
    · exact h.slot_fresh tx' htx
    · exact h.held_fresh p' tx' hp'
  · simp
  · intro p₁ p₂ tx' h₁ h₂
    rcases hheld p₁ tx' h₁ with ⟨rfl, rfl⟩ | ⟨h₁, hne⟩
    · rcases hheld p₂ tx' h₂ with ⟨rfl, -⟩ | ⟨-, hne⟩
      · rfl
      · exact absurd rfl hne
    · rcases hheld p₂ tx' h₂ with ⟨-, hsame⟩ | ⟨h₂, -⟩
      · exact absurd hsame hne
      · exact h.held_once p₁ p₂ tx' h₁ h₂
  · exact h.numbered
  · exact h.once

theorem Senders.send {p : Party} {tx : Nat} {answer : α} {ok : Bool} (h : Senders d)
    (hp : d.held p = some tx) : Senders { d with
      held := Function.update d.held p none
      log := d.log.send tx answer ok } := by
  obtain ⟨hlt, hunused⟩ := h.held_fresh p tx hp
  have hheld : ∀ p' tx', Function.update d.held p none p' = some tx' → p' ≠ p ∧ d.held p' = some tx' := by
    intro p' tx' hp'
    by_cases hpp : p' = p
    · simp [hpp] at hp'
    · rw [Function.update_of_ne hpp] at hp'
      exact ⟨hpp, hp'⟩
  -- the sender used is nowhere else
  have hfresh : ∀ tx', tx' ≠ tx → d.Fresh tx' →
      Fresh { d with held := Function.update d.held p none, log := d.log.send tx answer ok } tx' := by
    intro tx' hne htx'
    exact ⟨htx'.1, by simp [hne, htx'.2]⟩
  constructor
  · intro tx' htx'
    refine hfresh tx' (fun hsame => ?_) (h.slot_fresh tx' htx')
    rw [hsame] at htx'
    exact h.slot_held p tx htx' hp
  · intro p' tx' hp'
    obtain ⟨hne, hp'⟩ := hheld p' tx' hp'
    refine hfresh tx' (fun hsame => ?_) (h.held_fresh p' tx' hp')
    rw [hsame] at hp'
    exact hne (h.held_once p' p tx hp' hp)
  · intro p' tx' htx' hp'
    exact h.slot_held p' tx' htx' (hheld p' tx' hp').2
  · intro p₁ p₂ tx' h₁ h₂
    exact h.held_once p₁ p₂ tx' (hheld p₁ tx' h₁).2 (hheld p₂ tx' h₂).2
  · intro tx' hmem
    rcases List.mem_cons.mp hmem with rfl | hmem
    · exact hlt
    · exact h.numbered tx' hmem
  · exact List.nodup_cons.mpr ⟨hunused, h.once⟩

end Senders

section Requests

variable {d : Desk α Party} {rx : Nat} {answer : Option α}

theorem Requests.slot_idle (h : Requests d) (hidle : d.stage = .idle) : d.slot = none := by
  rw [Option.eq_none_iff_forall_ne_some]
  intro tx htx
  have hoffers := h.slot tx htx
  rw [hidle] at hoffers
  cases hoffers

theorem Requests.publish (h : Requests d) (hidle : d.stage = .idle) : Requests { d with
    stage := .published d.count
    slot := some d.count
    count := d.count + 1
    log := d.log.publish d.count } := by
  have hclosed : ∀ rx < d.count, rx ∈ d.log.dropped := by
    intro rx hrx
    have hrequest := h.closed rx hrx
    rw [hidle] at hrequest
    exact hrequest.resolve_right fun hnone => nomatch hnone
  constructor
  case pending => rfl
  case numbered =>
    rintro rx ⟨⟩
    exact Nat.lt_succ_self _
  case dropped => exact fun rx hrx => Nat.lt_succ_of_lt (h.dropped rx hrx)
  case closed =>
    intro rx hrx
    by_cases hnew : rx = d.count
    · exact .inr (congrArg some hnew.symm)
    · have hlt : rx < d.count + 1 := hrx
      exact .inl (hclosed rx (by omega))
  case awaits =>
    rintro rx ⟨⟩ hdropped
    exact Nat.lt_irrefl _ (h.dropped _ hdropped)
  case received => exact fun _ _ hnone => nomatch hnone
  case returned =>
    intro rx answer hmem
    obtain ⟨hdropped, -, hcarries⟩ := h.returned rx answer hmem
    refine ⟨hdropped, fun hsame => ?_, hcarries⟩
    have hrx := h.dropped rx hdropped
    rw [← Option.some.inj hsame] at hrx
    exact Nat.lt_irrefl _ hrx
  case accepted =>
    intro tx a haccepted
    have hreturned := h.accepted tx a haccepted
    rw [hidle] at hreturned
    exact .inr (hreturned.resolve_left fun hnone => nomatch hnone)
  case once => exact h.once
  case raised =>
    have hraised := h.raised
    rw [hidle] at hraised
    exact hraised
  case slot => exact fun _ htx => htx

theorem Requests.raise (h : Requests d) (hstage : d.stage = .published rx) :
    Requests { d with stage := .asking rx, raised := true } := by
  obtain ⟨stage, _, _, _, _, _⟩ := d
  obtain rfl : stage = .published rx := hstage
  exact { h with raised := rfl }

theorem Requests.receive (h : Requests d) (hstage : d.stage = .asking rx)
    (hcarries : d.log.Carries rx answer) :
    Requests { d with stage := .answered rx answer, log := d.log.receive rx } := by
  obtain ⟨stage, _, _, _, _, log⟩ := d
  obtain rfl : stage = .asking rx := hstage
  constructor
  case pending => exact h.pending
  case numbered => exact h.numbered
  case dropped => exact List.forall_mem_cons.mpr ⟨h.numbered rx rfl, h.dropped⟩
  case closed => exact fun rx' hrx' => (h.closed rx' hrx').imp_left (List.mem_cons_of_mem rx)
  case awaits => exact fun _ hnone => nomatch hnone
  case received =>
    rintro _ _ ⟨⟩
    exact ⟨List.mem_cons_self, hcarries⟩
  case returned =>
    intro rx' answer' hmem
    obtain ⟨hdropped, hother⟩ := h.returned rx' answer' hmem
    exact ⟨List.mem_cons_of_mem rx hdropped, hother⟩
  case accepted => exact h.accepted
  case once => exact h.once
  case raised => exact h.raised
  case slot => exact h.slot

theorem Requests.lower (h : Requests d) (hstage : d.stage = .answered rx answer) :
    Requests { d with stage := .lowered rx answer, raised := false } := by
  obtain ⟨stage, _, _, _, _, _⟩ := d
  obtain rfl : stage = .answered rx answer := hstage
  exact { h with raised := rfl }

theorem Requests.clear (h : Requests d) (hstage : d.stage = .lowered rx answer) :
    Requests { d with stage := .cleared rx answer, slot := none } := by
  obtain ⟨stage, _, _, _, _, _⟩ := d
  obtain rfl : stage = .lowered rx answer := hstage
  exact { h with slot := fun _ hnone => nomatch hnone }

-- The request is over: it returns what was accepted on its channel.
theorem Requests.give (h : Requests d) (hstage : d.stage = .cleared rx answer) :
    Requests { d with stage := .idle, log := d.log.give answer } := by
  obtain ⟨stage, _, _, count, _, log⟩ := d
  obtain rfl : stage = .cleared rx answer := hstage
  obtain ⟨hdropped, hcarries⟩ := h.received rx answer rfl
  rw [give_eq h.pending]
  constructor
  case pending => rfl
  case numbered => exact fun _ hnone => nomatch hnone
  case dropped => exact h.dropped
  case closed =>
    intro rx' hrx'
    refine .inl ((h.closed rx' hrx').elim id fun hsame => ?_)
    rwa [← Option.some.inj hsame]
  case awaits => exact fun _ hnone => nomatch hnone
  case received => exact fun _ _ hnone => nomatch hnone
  case returned =>
    intro rx' answer' hmem
    rcases List.mem_cons.mp hmem with hnew | hmem
    · obtain ⟨rfl, rfl⟩ := Prod.mk.inj hnew
      exact ⟨hdropped, (fun hnone => nomatch hnone), hcarries⟩
    · obtain ⟨hdropped', -, hcarries'⟩ := h.returned rx' answer' hmem
      exact ⟨hdropped', (fun hnone => nomatch hnone), hcarries'⟩
  case accepted =>
    intro tx a haccepted
    refine .inr ((h.accepted tx a haccepted).elim (fun hsame => ?_) (List.mem_cons_of_mem _))
    obtain rfl : rx = tx := Option.some.inj hsame
    rw [(hcarries a).mpr haccepted]
    exact List.mem_cons_self
  case once =>
    refine List.nodup_cons.mpr ⟨fun hmem => ?_, h.once⟩
    obtain ⟨⟨rx', answer'⟩, hmem', hsame⟩ := List.mem_map.mp hmem
    obtain rfl : rx' = rx := hsame
    exact (h.returned rx' answer' hmem').2.1 rfl
  case raised => exact h.raised
  case slot => exact fun tx htx => nomatch h.slot tx htx

theorem Requests.take (h : Requests d) (held : Party → Option Nat) :
    Requests { d with slot := none, held } :=
  { h with slot := fun _ hnone => nomatch hnone }

-- What is sent is accepted for the request in progress alone.
theorem Requests.send {tx : Nat} {a : α} {ok : Bool} (h : Requests d) (hlt : tx < d.count)
    (hok : ok = true ↔ tx ∉ d.log.dropped) (held : Party → Option Nat) :
    Requests { d with held, log := d.log.send tx a ok } := by
  have hcarries : ∀ rx answer, rx ∈ d.log.dropped → d.log.Carries rx answer →
      (d.log.send tx a ok).Carries rx answer := by
    intro rx answer hdropped hcarries
    refine hcarries.send fun htrue hsame => ?_
    rw [hsame] at hdropped
    exact hok.mp htrue hdropped
  constructor
  case pending => exact h.pending
  case numbered => exact h.numbered
  case dropped => exact h.dropped
  case closed => exact h.closed
  case awaits => exact h.awaits
  case received =>
    intro rx answer hreceived
    obtain ⟨hdropped, hcarries'⟩ := h.received rx answer hreceived
    exact ⟨hdropped, hcarries rx answer hdropped hcarries'⟩
  case returned =>
    intro rx answer hmem
    obtain ⟨hdropped, hpending, hcarries'⟩ := h.returned rx answer hmem
    exact ⟨hdropped, hpending, hcarries rx answer hdropped hcarries'⟩
  case accepted =>
    intro tx' a' haccepted
    rcases accepted_send.mp haccepted with ⟨rfl, -, htrue⟩ | haccepted
    · exact .inl ((h.closed tx' hlt).resolve_left (hok.mp htrue))
    · exact h.accepted tx' a' haccepted
  case once => exact h.once
  case raised => exact h.raised
  case slot => exact h.slot

end Requests

section Sound

variable {d d' : Desk α Party}

theorem sound_init : Sound ({} : Desk α Party) := by
  refine ⟨⟨?_, ?_, ?_, ?_, ?_, ?_⟩, ⟨?_, ?_, ?_, ?_, ?_, ?_, ?_, ?_, ?_, ?_, ?_⟩⟩
  all_goals simp [Stage.request, Stage.awaits, Stage.received, Stage.raises, Log.senders, Log.Accepted]

-- Every move keeps the desk sound.
theorem Sound.move [DecidableEq Party] (h : Sound d) (hmove : Move d d') : Sound d' := by
  obtain ⟨hsenders, hrequests⟩ := h
  cases hmove with
  | publish hidle => exact ⟨hsenders.publish rfl rfl rfl rfl, hrequests.publish hidle⟩
  | raise hstage => exact ⟨hsenders.keep (fun _ => id) rfl rfl rfl, hrequests.raise hstage⟩
  | receive hstage hcarries =>
      exact ⟨hsenders.keep (fun _ => id) rfl rfl rfl, hrequests.receive hstage hcarries⟩
  | lower hstage => exact ⟨hsenders.keep (fun _ => id) rfl rfl rfl, hrequests.lower hstage⟩
  | clear hstage =>
      exact ⟨hsenders.keep (fun _ hnone => nomatch hnone) rfl rfl rfl, hrequests.clear hstage⟩
  | give hstage =>
      exact ⟨hsenders.keep (fun _ => id) rfl rfl (senders_give _), hrequests.give hstage⟩
  | take htx hfree => exact ⟨hsenders.take htx, hrequests.take _⟩
  | send hp hok =>
      have hlt := (hsenders.held_fresh _ _ hp).1
      exact ⟨hsenders.send hp, hrequests.send hlt hok _⟩

-- Answers are neither lost nor duplicated: each is sent once and each request returns once;
-- what was accepted is returned by its own request, and nothing else is.
structure Delivered (log : Log α) : Prop where
  sent_once : log.senders.Nodup
  returned_once : (log.returned.map Prod.fst).Nodup
  accepted : ∀ tx a, log.Accepted tx a → log.pending = some tx ∨ (tx, some a) ∈ log.returned
  returned : ∀ rx a, (rx, some a) ∈ log.returned → log.Accepted rx a
  refused : ∀ tx a, (tx, a, false) ∈ log.sent → ∀ answer, (tx, answer) ∈ log.returned → answer = none

-- A sender is used for one answer.
theorem sent_unique {log : Log α} (h : log.senders.Nodup) {tx : Nat} {e e' : α × Bool}
    (he : (tx, e) ∈ log.sent) (he' : (tx, e') ∈ log.sent) : e = e' :=
  (Prod.mk.inj (List.inj_on_of_nodup_map h he he' rfl)).2

theorem Sound.delivered (h : Sound d) : Delivered d.log := by
  obtain ⟨hsenders, hrequests⟩ := h
  have hreturned : ∀ rx a, (rx, some a) ∈ d.log.returned → d.log.Accepted rx a :=
    fun rx a hmem => ((hrequests.returned rx _ hmem).2.2 a).mp rfl
  constructor
  case sent_once => exact hsenders.once
  case returned_once => exact hrequests.once
  case accepted =>
    rw [hrequests.pending]
    exact hrequests.accepted
  case returned => exact hreturned
  case refused =>
    intro tx a hrefused answer hmem
    cases answer with
    | none => rfl
    | some b => cases sent_unique hsenders.once hrefused (hreturned tx b hmem)

-- With no request in progress the sign is down and no sender waits to be taken.
theorem Sound.quiet (h : Sound d) (hnone : d.log.pending = none) : d.raised = false ∧ d.slot = none := by
  have hidle : d.stage = .idle := Stage.request_eq_none.mp (h.requests.pending.symm.trans hnone)
  refine ⟨?_, h.requests.slot_idle hidle⟩
  rw [h.requests.raised, hidle]
  rfl

-- The request an answer is accepted for is the one in progress.
theorem Sound.accepts {p : Party} {tx : Nat} (h : Sound d) (hp : d.held p = some tx)
    (htx : tx ∉ d.log.dropped) : d.log.pending = some tx := by
  rw [h.requests.pending]
  exact (h.requests.closed tx (h.senders.held_fresh p tx hp).1).resolve_left htx

end Sound

end Desk
