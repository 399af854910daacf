import AltKeeper.Process.Connections
import AltKeeper.Process.Jobs
import AltKeeper.Process.Play

-- Who holds what in the whole process: one guard at most, one connection with the lock, and a
-- link only for those.
namespace AltKeeper

section Ties

-- The job that has the guard before its thread begins.
def Waits (pending : List (Nat × Job)) (i : Tid) : Prop := ∃ n job, i = .job n ∧ (n, job) ∈ pending

structure Locked (work : Option Tid) (q : Tid → Local) : Prop where
  holder : ∀ i, (q i).work = true ↔ work = some i
  conn : ∀ i, (q i).work = true → i.is_conn = true

structure Linked (links : List Tid) (q : Tid → Local) : Prop where
  holder : ∀ i, (q i).link = true ↔ i ∈ links
  nodup : links.Nodup

structure Guarded (busy : Bool) (guards : List Tid) (pending : List (Nat × Job)) (q : Tid → Local) :
    Prop where
  single : guards.length ≤ 1
  busy_iff : busy = true ↔ guards ≠ []
  owner : ∀ i, i ∈ guards ↔ (q i).guard.isSome = true ∨ Waits pending i
  waits : ∀ n job, (n, job) ∈ pending → (q (.job n)).guard.isSome = false
  not_conn : ∀ i, (q i).guard.isSome = true → i.is_conn = false

-- The resources are those that the threads believe they hold.
structure Tied (res : Resources) (q : Tid → Local) : Prop where
  is_conn : ∀ i, (q i).is_conn = i.is_conn
  locked : Locked res.work q
  linked : Linked res.links q
  guarded : Guarded res.busy res.guards res.pending q
  may_connect : ∀ i, (q i).link = true → (q i).MayConnect

end Ties

section Steps

variable {work : Option Tid} {links : List Tid} {busy : Bool} {guards : List Tid}
  {pending : List (Nat × Job)} {q : Tid → Local} {i : Tid} {s : Local}

-- What a change to one thread leaves as it was.
theorem update_same {β : Type} (p : Local → β) (h : p s = p (q i)) (j : Tid) :
    p (Function.update q i s j) = p (q j) := by
  by_cases hj : j = i
  · subst hj
    simpa using h
  · simp [hj]

namespace Locked

theorem keep (h : Locked work q) (hwork : s.work = (q i).work) :
    Locked work (Function.update q i s) := by
  have hq := update_same Local.work hwork
  exact ⟨fun j => by rw [hq j]; exact h.holder j, fun j hj => h.conn j (hq j ▸ hj)⟩

theorem lock (h : Locked work q) (hfree : work = none) (hi : i.is_conn = true)
    (hs : s.work = true) : Locked (some i) (Function.update q i s) := by
  have hnone : ∀ j, (q j).work = false := by
    intro j
    by_contra hj
    have hheld := (h.holder j).mp (by simpa using hj)
    rw [hfree] at hheld
    cases hheld
  constructor
  · intro j
    by_cases hj : j = i
    · subst hj
      simp [hs]
    · have hne : ¬ some i = some j := fun he => hj (Option.some.inj he).symm
      simp [hj, hnone j, hne]
  · intro j hwork
    by_cases hj : j = i
    · rw [hj]
      exact hi
    · simp [hj, hnone j] at hwork

theorem release (h : Locked work q) (hs : s.work = false) :
    Locked (if work = some i then none else work) (Function.update q i s) := by
  constructor
  · intro j
    by_cases hj : j = i
    · subst hj
      simp only [Function.update_self, hs]
      split <;> simp_all
    · simp only [Function.update_of_ne hj, h.holder j]
      split
      · rename_i hheld
        have hne : ¬ work = some j := by
          rw [hheld]
          exact fun he => hj (Option.some.inj he).symm
        simp [hne]
      · rfl
  · intro j hwork
    by_cases hj : j = i
    · subst hj
      simp [hs] at hwork
    · rw [Function.update_of_ne hj] at hwork
      exact h.conn j hwork

end Locked

namespace Linked

theorem keep (h : Linked links q) (hlink : s.link = (q i).link) :
    Linked links (Function.update q i s) := by
  have hq := update_same Local.link hlink
  exact ⟨fun j => by rw [hq j]; exact h.holder j, h.nodup⟩

theorem connect (h : Linked links q) (hnone : (q i).link = false) (hs : s.link = true) :
    Linked (i :: links) (Function.update q i s) := by
  have hi : i ∉ links := by
    rw [← h.holder i, hnone]
    simp
  constructor
  · intro j
    by_cases hj : j = i
    · subst hj
      simp [hs]
    · simp [hj, h.holder j]
  · exact List.nodup_cons.mpr ⟨hi, h.nodup⟩

theorem unlink (h : Linked links q) (hs : s.link = false) :
    Linked (links.filter (· ≠ i)) (Function.update q i s) := by
  constructor
  · intro j
    by_cases hj : j = i
    · subst hj
      simp [hs]
    · simp [hj, h.holder j]
  · exact h.nodup.filter _

end Linked

namespace Guarded

theorem keep (h : Guarded busy guards pending q) (hguard : s.guard.isSome = (q i).guard.isSome) :
    Guarded busy guards pending (Function.update q i s) := by
  have hq := update_same (fun t => t.guard.isSome) hguard
  constructor
  case single => exact h.single
  case busy_iff => exact h.busy_iff
  case owner => exact fun j => by rw [hq j]; exact h.owner j
  case waits => exact fun n job hn => by rw [hq]; exact h.waits n job hn
  case not_conn => exact fun j hj => h.not_conn j (hq j ▸ hj)

theorem guards_eq (h : Guarded busy guards pending q) (hi : i ∈ guards) : guards = [i] := by
  have hlength := h.single
  rcases guards with _ | ⟨j, _ | ⟨k, rest⟩⟩
  · cases hi
  · rw [List.mem_singleton] at hi
    rw [hi]
  · simp at hlength

-- While a thread uses the guard no job waits for it.
theorem none_waits (h : Guarded busy guards pending q) (hi : (q i).guard.isSome = true) : pending = [] := by
  rw [List.eq_nil_iff_forall_not_mem]
  rintro ⟨n, job⟩ hmem
  have hwaits : Tid.job n ∈ guards := (h.owner _).mpr (.inr ⟨n, job, rfl, hmem⟩)
  rw [h.guards_eq ((h.owner i).mpr (.inl hi)), List.mem_singleton] at hwaits
  have hnone := h.waits n job hmem
  rw [hwaits, hi] at hnone
  cases hnone

theorem guard_of_ne (h : Guarded busy guards pending q) (hi : (q i).guard.isSome = true) {j : Tid} (hj : j ≠ i) :
    (q j).guard.isSome = false := by
  by_contra hother
  have hmem : j ∈ guards := (h.owner j).mpr (.inl (eq_true_of_ne_false hother))
  rw [h.guards_eq ((h.owner i).mpr (.inl hi)), List.mem_singleton] at hmem
  exact hj hmem

-- Nobody has the guard of an idle server.
theorem of_idle (h : Guarded busy guards pending q) (hbusy : busy = false) :
    guards = [] ∧ pending = [] ∧ ∀ j, (q j).guard.isSome = false := by
  have hguards : guards = [] := by
    by_contra hne
    rw [h.busy_iff.mpr hne] at hbusy
    cases hbusy
  have hnone : ∀ j, ¬ ((q j).guard.isSome = true ∨ Waits pending j) := by
    intro j hj
    have := (h.owner j).mpr hj
    simp [hguards] at this
  refine ⟨hguards, ?_, fun j => ?_⟩
  · rw [List.eq_nil_iff_forall_not_mem]
    rintro ⟨n, job⟩ hmem
    exact hnone (.job n) (.inr ⟨n, job, rfl, hmem⟩)
  · by_contra hj
    exact hnone j (.inl (eq_true_of_ne_false hj))

theorem acquire (h : Guarded busy guards pending q) (hbusy : busy = false) (hconn : i.is_conn = false)
    (hs : s.guard.isSome = true) :
    Guarded true (i :: guards) pending (Function.update q i s) := by
  obtain ⟨hguards, hpending, hnone⟩ := h.of_idle hbusy
  constructor
  case single => simp [hguards]
  case busy_iff => simp 
  case owner =>
    intro j
    by_cases hj : j = i
    · subst hj
      simp [hs]
    · simp [Waits, hguards, hpending, hj, hnone j]
  case waits => simp [hpending]
  case not_conn =>
    intro j hj
    by_cases hji : j = i
    · rw [hji]
      exact hconn
    · simp [hji, hnone j] at hj

-- Nobody has the guard once the one who had it gives it up.
theorem none_after (h : Guarded busy guards pending q) (hi : (q i).guard.isSome = true)
    (hs : s.guard = none) (j : Tid) : (Function.update q i s j).guard.isSome = false := by
  by_cases hj : j = i
  · subst hj
    simp [hs]
  · simpa [hj] using h.guard_of_ne hi hj

theorem free (h : Guarded busy guards pending q) (hi : (q i).guard.isSome = true) (hs : s.guard = none) :
    Guarded false (guards.erase i) pending (Function.update q i s) := by
  have hguards := h.guards_eq ((h.owner i).mpr (.inl hi))
  have hpending := h.none_waits hi
  have hnone := h.none_after hi hs
  constructor
  case single => simp [hguards]
  case busy_iff => simp [hguards]
  case owner => simp [Waits, hguards, hpending, hnone]
  case waits => simp [hpending]
  case not_conn => simp [hnone]

theorem launch (h : Guarded busy guards pending q) (hi : (q i).guard.isSome = true) (hs : s.guard = none) (n : Nat) (job : Job) :
    Guarded busy (guards.map fun j => if j = i then .job n else j) (pending ++ [(n, job)]) (Function.update q i s) := by
  have hguards := h.guards_eq ((h.owner i).mpr (.inl hi))
  have hpending := h.none_waits hi
  have hbusy : busy = true := h.busy_iff.mpr (by simp [hguards])
  have hnone := h.none_after hi hs
  constructor
  case single => simp [hguards]
  case busy_iff => simp [hguards, hbusy]
  case owner =>
    intro j
    simp only [Waits, hguards, hpending, hnone, List.map_cons, List.map_nil,
      if_true, List.mem_singleton, List.nil_append, Prod.mk.injEq, Bool.false_eq_true, false_or]
    exact ⟨fun he => ⟨_, _, he, rfl, rfl⟩, by rintro ⟨n, _, rfl, rfl, -⟩; rfl⟩
  case waits =>
    exact fun n _ _ => hnone (.job n)
  case not_conn => simp [hnone]

-- A job whose thread begins has the guard that waited for it.
theorem start {n : Nat} {job : Job} (h : Guarded busy guards pending q) (hn : (n, job) ∈ pending)
    (hs : s.guard.isSome = true) :
    Guarded busy guards (pending.filter (·.1 ≠ n)) (Function.update q (.job n) s) := by
  have howner : Tid.job n ∈ guards := (h.owner _).mpr (.inr ⟨n, job, rfl, hn⟩)
  have hguards := h.guards_eq howner
  have hpending : pending.filter (·.1 ≠ n) = [] := by
    rw [List.filter_eq_nil_iff]
    rintro ⟨m, job'⟩ hmem
    have hm : Tid.job m ∈ guards := (h.owner _).mpr (.inr ⟨m, job', rfl, hmem⟩)
    rw [hguards, List.mem_singleton] at hm
    simpa using hm
  have hnone : ∀ j, j ≠ .job n → (q j).guard.isSome = false := by
    intro j hj
    by_contra hother
    have hmem : j ∈ guards := (h.owner j).mpr (.inl (eq_true_of_ne_false hother))
    rw [hguards, List.mem_singleton] at hmem
    exact hj hmem
  rw [hpending]
  constructor
  case single => exact h.single
  case busy_iff => exact h.busy_iff
  case owner =>
    intro j
    by_cases hj : j = .job n
    · subst hj
      simp [howner, hs]
    · simp [Waits, hguards, hj, hnone j hj]
  case waits => simp
  case not_conn =>
    intro j hj
    by_cases hjn : j = .job n
    · rw [hjn]
      rfl
    · simp [hjn, hnone j hjn] at hj

end Guarded

end Steps

section Process

variable {ext : Ext} {uuid : Octets → Str} {addr : Option SocketAddr} {w w' : World}
  {q : Tid → Local} {i : Tid} {c : Cmd} {r : Resp c}

-- The commands that take or give back something.
def Cmd.takes : Cmd → Bool
  | .lock_work => true
  | .unlock_work => true
  | .connect _ => true
  | .drop_link => true
  | .unwind => true
  | .try_busy => true
  | .drop_guard => true
  | .spawn _ => true
  | _ => false

theorem effect_res (hc : c.takes = false) (h : effect uuid i w c r w') : w'.res = w.res := by
  cases c with
  | copy_all =>
      cases r with
      | ok raw => rw [h.2]
      | error e => rw [h]
  | install blob =>
      obtain ⟨phone, -, rfl⟩ := h
      rfl
  | remove u =>
      obtain ⟨phone, -, rfl⟩ := h
      rfl
  | _ => first | (obtain rfl := h; rfl) | (obtain ⟨-, rfl⟩ := h; rfl) | exact nomatch hc

theorem advance_holds {s : Local} (hc : c.takes = false) :
    (s.advance c r).guard.isSome = s.guard.isSome ∧ (s.advance c r).work = s.work ∧
      (s.advance c r).link = s.link := by
  unfold Local.advance
  split <;> first | exact ⟨rfl, rfl, rfl⟩ | (simp; done) | exact nomatch hc

theorem MayConnect.keep {s t : Local} (h : s.MayConnect) (hconn : t.is_conn = s.is_conn)
    (hguard : t.guard.isSome = s.guard.isSome) (hwork : t.work = s.work) : t.MayConnect := by
  unfold Local.MayConnect at h ⊢
  rwa [hconn, hguard, hwork]

namespace Tied

-- The parts of a step, put together: the thread that moves may keep a link only by right.
theorem step {res res' : Resources} {s : Local} (h : Tied res q) (hconn : s.is_conn = (q i).is_conn)
    (hlocked : Locked res'.work (Function.update q i s))
    (hlinked : Linked res'.links (Function.update q i s))
    (hguarded : Guarded res'.busy res'.guards res'.pending (Function.update q i s)) (hmay : s.link = true → s.MayConnect) :
    Tied res' (Function.update q i s) := by
  refine ⟨?_, hlocked, hlinked, hguarded, ?_⟩
  · intro j
    exact (update_same Local.is_conn hconn j).trans (h.is_conn j)
  · intro j hj
    by_cases hji : j = i
    · subst hji
      rw [Function.update_self] at hj ⊢
      exact hmay hj
    · rw [Function.update_of_ne hji] at hj ⊢
      exact h.may_connect j hj

theorem keep {res : Resources} {s : Local} (h : Tied res q) (hconn : s.is_conn = (q i).is_conn)
    (hguard : s.guard.isSome = (q i).guard.isSome) (hwork : s.work = (q i).work)
    (hlink : s.link = (q i).link) : Tied res (Function.update q i s) :=
  h.step hconn (h.locked.keep hwork) (h.linked.keep hlink) (h.guarded.keep hguard) fun hs =>
    MayConnect.keep (h.may_connect i (hlink ▸ hs)) hconn hguard hwork

theorem call (h : Tied w.res q) (hc : (q i).Allows ext c) (heffect : effect uuid i w c r w') :
    Tied w'.res (Function.update q i ((q i).advance c r)) := by
  cases c with
  | lock_work =>
      obtain ⟨hfree, rfl⟩ := heffect
      exact h.step rfl (h.locked.lock hfree ((h.is_conn i).symm.trans hc.1) rfl) (h.linked.keep rfl)
        (h.guarded.keep rfl) fun _ => by simp [Local.advance, Local.MayConnect, hc.1]
  | unlock_work =>
      obtain rfl := heffect
      exact h.step rfl (h.locked.release rfl) (h.linked.keep rfl) (h.guarded.keep rfl) fun hs => by
        have hlink : (q i).link = true := hs
        rw [hc] at hlink
        cases hlink
  | connect a =>
      cases r with
      | linked =>
          obtain rfl := heffect
          exact h.step rfl (h.locked.keep rfl) (h.linked.connect hc.1 rfl) (h.guarded.keep rfl)
            fun _ => hc.2
      | failed e =>
          obtain rfl := heffect
          exact h.keep rfl rfl rfl rfl
      | expired =>
          obtain rfl := heffect
          exact h.keep rfl rfl rfl rfl
  | drop_link =>
      obtain rfl := heffect
      exact h.step rfl (h.locked.keep rfl) (h.linked.unlink rfl) (h.guarded.keep rfl)
        fun hs => absurd hs Bool.false_ne_true
  | unwind =>
      obtain rfl := heffect
      exact h.step rfl (h.locked.release rfl) (h.linked.unlink rfl) (h.guarded.keep rfl)
        fun hs => absurd hs Bool.false_ne_true
  | try_busy =>
      obtain ⟨rfl, hw⟩ := heffect
      cases hbusy : w.res.busy with
      | true =>
          simp only [hbusy] at hw
          obtain rfl := hw
          exact h.keep rfl rfl rfl rfl
      | false =>
          simp only [hbusy] at hw
          obtain rfl := hw
          have hguard := hc.2
          exact h.step rfl (h.locked.keep rfl) (h.linked.keep rfl)
            (h.guarded.acquire hbusy ((h.is_conn i).symm.trans hc.1) rfl) fun _ => by
              simp [Local.advance, Local.MayConnect, hc.1]
  | drop_guard =>
      obtain rfl := heffect
      obtain ⟨hlink, k, hk, -⟩ := hc
      have hi : (q i).guard.isSome = true := by rw [hk]; rfl
      exact h.step rfl (h.locked.keep rfl) (h.linked.keep rfl) (h.guarded.free hi rfl) fun hs => by
        have hlink' : (q i).link = true := hs
        rw [hlink] at hlink'
        cases hlink'
  | spawn job =>
      obtain ⟨hlink, k, hk, -⟩ := hc
      have hi : (q i).guard.isSome = true := by rw [hk]; rfl
      have hmay : (q i).link = true → Local.MayConnect { q i with guard := none } := by
        rw [hlink]
        exact fun hs => absurd hs Bool.false_ne_true
      cases r with
      | true =>
          obtain rfl := heffect
          exact h.step rfl (h.locked.keep rfl) (h.linked.keep rfl) (h.guarded.launch hi rfl w.res.jobs job) hmay
      | false =>
          obtain rfl := heffect
          exact h.step rfl (h.locked.keep rfl) (h.linked.keep rfl) (h.guarded.free hi rfl) hmay
  | _ =>
      rw [effect_res rfl heffect]
      obtain ⟨hguard, hwork, hlink⟩ := advance_holds (s := q i) (r := r) rfl
      exact h.keep advance_is_conn hguard hwork hlink

end Tied

-- What a thread starts on, and the state it starts from: its own, or for a job its own with
-- the guard that waited for it.
theorem launched_conducts {p : Act Unit} (hconn : (q i).is_conn = i.is_conn) (hidle : (q i).Idle)
    (h : launched ext addr i w p w') :
    ((∀ n, i ≠ .job n) ∧ w' = w ∧ p.wp (conduct ext) (fun _ s => s.Idle) (q i)) ∨
      ∃ n job, i = .job n ∧ (n, job) ∈ w.res.pending ∧ p = Web.job_thread ext ⟨addr⟩ job ∧
        w' = { w with res := { w.res with pending := w.res.pending.filter (·.1 ≠ n) } } ∧
        p.wp (conduct ext) (fun _ s => s.Idle) { q i with guard := some job.marks.Bounds } := by
  obtain ⟨hguard, hwork, hlink⟩ := id hidle
  cases i with
  | conn n =>
      obtain ⟨fuel, rfl, rfl⟩ := h
      refine .inl ⟨fun n => nofun, rfl, ?_⟩
      exact connection_thread_conducts ⟨addr⟩ fuel ⟨hconn, hguard, hwork, hlink⟩
  | http n =>
      obtain ⟨req, rfl, rfl⟩ := h
      exact .inl ⟨fun n => nofun, rfl, Web.handle_conducts req ⟨hconn, hidle⟩⟩
  | job n =>
      obtain ⟨job, hjob, rfl, rfl⟩ := h
      refine .inr ⟨n, job, rfl, hjob, rfl, rfl, Web.job_thread_conducts ⟨addr⟩ job ?_ hlink⟩
      exact ⟨hconn, hwork, job.marks.Bounds, rfl, fun _ hg => hg⟩

theorem Tied.begin {n : Nat} {job : Job} (h : Tied w.res q) (hidle : (q (.job n)).Idle)
    (hjob : (n, job) ∈ w.res.pending) :
    Tied { w.res with pending := w.res.pending.filter (·.1 ≠ n) }
      (Function.update q (.job n) { q (.job n) with guard := some job.marks.Bounds }) := by
  refine h.step rfl (h.locked.keep rfl) (h.linked.keep rfl) (h.guarded.start hjob rfl) ?_
  intro hlink
  rw [hidle.2.2] at hlink
  cases hlink

theorem Tied.start {p : Act Unit} (h : Tied w.res q) (hidle : (q i).Idle)
    (hp : launched ext addr i w p w') :
    ∃ s, p.wp (conduct ext) (fun _ s => s.Idle) s ∧ Tied w'.res (Function.update q i s) := by
  rcases launched_conducts (h.is_conn i) hidle hp with ⟨-, rfl, hwp⟩ | ⟨n, job, rfl, hjob, -, rfl, hwp⟩
  · exact ⟨q i, hwp, by rwa [Function.update_eq_self]⟩
  · exact ⟨_, hwp, h.begin hidle hjob⟩

-- Every step of any thread keeps the ties, whatever is answered.
theorem tied_modular : Threads.Modular (process ext uuid addr) (conduct ext)
    (fun _ _ _ _ => True) (fun w q => Tied w.res q) Local.Idle where
  call h hc _ heffect := ⟨_, rfl, h.call hc heffect⟩
  start h hidle hp := h.start hidle hp

abbrev Conforming (ext : Ext) : Threads.Config Tid World Resp → Prop :=
  Threads.Conforms (conduct ext) (fun w q => Tied w.res q) Local.Idle

-- The threads before the first request.
def fresh (i : Tid) : Local := { is_conn := i.is_conn }

theorem fresh_tied : Tied {} fresh := by
  refine ⟨fun _ => rfl, ⟨?_, ?_⟩, ⟨?_, ?_⟩, ⟨?_, ?_, ?_, ?_, ?_⟩, ?_⟩
  all_goals simp [fresh, Waits]

theorem initial_conforms (phone : List Octets) : Conforming ext (initial phone) :=
  ⟨fresh, fresh_tied, fun _ => ⟨rfl, rfl, rfl⟩⟩

end Process

section Guard

variable {ext : Ext} {uuid : Octets → Str} {addr : Option SocketAddr} {phone : List Octets}

abbrev Step := Threads.Transition Tid World Resp

-- The steps in which a guard is dropped: the end of a job, however it ended, and a job whose
-- thread could not start.
def ends_guard : Threads.Label Tid Resp → Prop
  | .call _ ⟨.drop_guard, _⟩ => True
  | .call _ ⟨.spawn _, r⟩ => r = false
  | _ => False

-- One owner at most, who is at work or about to begin; the flag says if there is one.
structure FlagOwned (cfg : Threads.Config Tid World Resp) : Prop where
  single : cfg.world.res.guards.length ≤ 1
  busy_iff : cfg.world.res.busy = true ↔ cfg.world.res.guards ≠ []
  alive : ∀ i ∈ cfg.world.res.guards, cfg.thread i ≠ .ret () ∨ Waits cfg.world.res.pending i

theorem Conforming.flag_owned {cfg : Threads.Config Tid World Resp} (h : Conforming ext cfg) :
    FlagOwned cfg := by
  obtain ⟨q, htied, hthreads⟩ := h
  refine ⟨htied.guarded.single, htied.guarded.busy_iff, fun i hi => ?_⟩
  rcases (htied.guarded.owner i).mp hi with hguard | hwaits
  · left
    intro hdone
    have hidle := hthreads i
    rw [hdone] at hidle
    rw [hidle.1] at hguard
    cases hguard
  · exact .inr hwaits

theorem ends_guard_frees {label : Threads.Label Tid Resp} {cfg cfg' : Threads.Config Tid World Resp}
    (hstep : Threads.Step (process ext uuid addr) label cfg cfg') (hends : ends_guard label) :
    cfg'.world.res.busy = false := by
  cases hstep with
  | @call _ i c k r w is_next heffect =>
      cases c with
      | drop_guard =>
          obtain rfl := heffect
          rfl
      | spawn job =>
          obtain rfl : r = false := hends
          obtain rfl := heffect
          rfl
      | _ => exact hends.elim
  | start _ _ => exact hends.elim

-- In every run the flag is the ownership of a job, and is down after each ending.
theorem busy_is_ownership {steps : List Step} {cfg : Threads.Config Tid World Resp}
    (run : Run ext uuid addr phone steps cfg) :
    FlagOwned cfg ∧
      (∀ t ∈ steps, FlagOwned t.before ∧ FlagOwned t.after ∧
        (ends_guard t.label → t.after.world.res.busy = false)) ∧
      ((∀ i, cfg.thread i = .ret ()) → cfg.world.res.pending = [] → cfg.world.res.busy = false) := by
  obtain ⟨hcfg, hsteps⟩ := tied_modular.run (initial_conforms phone) run fun t _ => by
    cases t.label <;> trivial
  have hflag := Conforming.flag_owned hcfg
  refine ⟨hflag, fun t ht => ?_, fun hdone hnone => ?_⟩
  · obtain ⟨hbefore, hafter⟩ := hsteps t ht
    exact ⟨Conforming.flag_owned hbefore, Conforming.flag_owned hafter, ends_guard_frees (run.step_mem t ht)⟩
  · by_contra hbusy
    have hguards := hflag.busy_iff.mp (eq_true_of_ne_false hbusy)
    obtain ⟨i, hi⟩ := List.exists_mem_of_ne_nil _ hguards
    rcases hflag.alive i hi with hlive | ⟨n, job, -, hmem⟩
    · exact hlive (hdone i)
    · rw [hnone] at hmem
      cases hmem

theorem busy_is_ownership_check : ∃ steps cfg, Run sample (fun _ => []) none [] steps cfg ∧
    cfg.world.res.guards = [.job 0] ∧ cfg.world.res.busy = true := by
  have hplay : ((player sample (fun _ => []) none fun _ => silent).play
      (starts (.http 0) (.page .check) 3) (initial [])).any
      (fun cfg => cfg.world.res.guards = [.job 0]) = true := by
    decide +kernel
  obtain ⟨steps, cfg, run, hguards⟩ := exists_run hplay
  have hguards : cfg.world.res.guards = [.job 0] := of_decide_eq_true hguards
  refine ⟨steps, cfg, run, hguards, (busy_is_ownership run).1.busy_iff.mpr ?_⟩
  rw [hguards]
  exact List.cons_ne_nil _ _

end Guard

section Links

variable {ext : Ext} {uuid : Octets → Str} {addr : Option SocketAddr} {phone : List Octets}

def opens_link : (c : Cmd) → Resp c → Bool
  | .connect _, .linked => true
  | _, _ => false

-- When the step opens a link, the other half of the process (connections or jobs) has none.
def OpensAlone (cfg : Threads.Config Tid World Resp) : Threads.Label Tid Resp → Prop
  | .call i ⟨c, r⟩ => opens_link c r = true → ∀ j ∈ cfg.world.res.links, j.is_conn = i.is_conn
  | .start _ => True

def OneLink (cfg : Threads.Config Tid World Resp) : Prop := cfg.world.res.links.length ≤ 1

section Effect

variable {w w' : World} {i : Tid} {c : Cmd} {r : Resp c}

theorem effect_opens (hopens : opens_link c r = true) (h : effect uuid i w c r w') :
    (∃ a, c = .connect a) ∧ w'.res.links = i :: w.res.links := by
  cases c with
  | connect a =>
      cases r with
      | linked =>
          obtain rfl := h
          exact ⟨⟨a, rfl⟩, rfl⟩
      | failed e => cases hopens
      | expired => cases hopens
  | _ => cases hopens

-- The links grow by a connection that succeeds, and by nothing else.
theorem effect_links (hopens : opens_link c r = false) (h : effect uuid i w c r w') :
    w'.res.links.Sublist w.res.links := by
  cases c with
  | connect a =>
      cases r with
      | linked => cases hopens
      | failed e =>
          obtain rfl := h
          exact List.Sublist.refl _
      | expired =>
          obtain rfl := h
          exact List.Sublist.refl _
  | drop_link =>
      obtain rfl := h
      exact List.filter_sublist
  | unwind =>
      obtain rfl := h
      exact List.filter_sublist
  | lock_work =>
      obtain ⟨-, rfl⟩ := h
      exact List.Sublist.refl _
  | try_busy =>
      obtain ⟨-, rfl⟩ := h
      split <;> exact List.Sublist.refl _
  | spawn job =>
      obtain rfl := h
      dsimp only
      split <;> exact List.Sublist.refl _
  | unlock_work =>
      obtain rfl := h
      exact List.Sublist.refl _
  | drop_guard =>
      obtain rfl := h
      exact List.Sublist.refl _
  | _ => rw [effect_res rfl h]

end Effect

-- Within one half the thread that opens a link is the only one that may hold one.
theorem Tied.no_link_of_same {res : Resources} {q : Tid → Local} {i j : Tid} (h : Tied res q)
    (hmay : (q i).MayConnect) (hlink : (q j).link = true) (hsame : j.is_conn = i.is_conn) : j = i := by
  have hmay' := h.may_connect j hlink
  unfold Local.MayConnect at hmay hmay'
  rw [h.is_conn] at hmay hmay'
  rw [hsame] at hmay'
  split at hmay
  case isTrue hconn =>
    rw [if_pos hconn] at hmay'
    have hi := (h.locked.holder i).mp hmay
    rw [(h.locked.holder j).mp hmay'] at hi
    exact Option.some.inj hi
  case isFalse hconn =>
    rw [if_neg hconn] at hmay'
    have hguards := h.guarded.guards_eq ((h.guarded.owner i).mpr (.inl hmay))
    have hj := (h.guarded.owner j).mpr (.inl hmay')
    rwa [hguards, List.mem_singleton] at hj

theorem one_link_step {label : Threads.Label Tid Resp} {cfg cfg' : Threads.Config Tid World Resp}
    (hcfg : Conforming ext cfg) (hone : OneLink cfg) (halone : OpensAlone cfg label)
    (hstep : Threads.Step (process ext uuid addr) label cfg cfg') : OneLink cfg' := by
  obtain ⟨q, htied, hthreads⟩ := hcfg
  cases hstep with
  | @call _ i c k r w is_next heffect =>
      unfold OneLink
      by_cases hopens : opens_link c r = true
      · obtain ⟨⟨a, rfl⟩, hlinks⟩ := effect_opens hopens heffect
        have hallowed := (Threads.Step.call is_next heffect).allows (hthreads i)
        have hnone : cfg.world.res.links = [] := by
          rw [List.eq_nil_iff_forall_not_mem]
          intro j hj
          have hlink := (htied.linked.holder j).mpr hj
          obtain rfl := htied.no_link_of_same hallowed.2 hlink (halone hopens j hj)
          rw [hallowed.1] at hlink
          cases hlink
        rw [hlinks, hnone]
        simp
      · exact Nat.le_trans (effect_links (eq_false_of_ne_true hopens) heffect).length_le hone
  | @start _ i p w is_done heffect =>
      have hlinks : w.res.links = cfg.world.res.links := by
        cases i with
        | conn n =>
            obtain ⟨fuel, -, rfl⟩ := heffect
            rfl
        | http n =>
            obtain ⟨req, -, rfl⟩ := heffect
            rfl
        | job n =>
            obtain ⟨job, -, -, rfl⟩ := heffect
            rfl
      unfold OneLink
      rw [hlinks]
      exact hone

-- The two mechanisms exclude each other's threads no more than that: there is one link at a
-- time in a run exactly when each half opens its links while the other has none.
theorem one_link_iff {steps : List Step} {cfg : Threads.Config Tid World Resp}
    (run : Run ext uuid addr phone steps cfg) :
    (OneLink cfg ∧ ∀ t ∈ steps, OneLink t.before ∧ OneLink t.after) ↔
      ∀ t ∈ steps, OpensAlone t.before t.label := by
  constructor
  · rintro ⟨-, hsteps⟩ ⟨before, label, after⟩ ht
    have hstep : Threads.Step (process ext uuid addr) label before after := run.step_mem _ ht
    have hafter : OneLink after := (hsteps _ ht).2
    cases hstep with
    | @call _ i c k r w is_next heffect =>
        intro hopens j hj
        rw [OneLink, (effect_opens hopens heffect).2, List.length_cons] at hafter
        have hnone : before.world.res.links = [] := List.length_eq_zero_iff.mp (by omega)
        rw [hnone] at hj
        cases hj
    | start _ _ => trivial
  · intro halone
    have hrun := run.invariant (fun cfg => Conforming ext cfg ∧ OneLink cfg) OpensAlone
      ⟨initial_conforms phone, Nat.zero_le 1⟩
      (fun cfg label cfg' h hok hstep =>
        ⟨tied_modular.step h.1 (by cases label <;> trivial) hstep, one_link_step h.1 h.2 hok hstep⟩)
      halone
    exact ⟨hrun.1.2, fun t ht => ⟨(hrun.2 t ht).1.2, (hrun.2 t ht).2.2⟩⟩

-- A connection has a link open to remove an app when a check, asked from the page, opens its
-- own: the check does not look at the lock of the phone.
def crossing : List (Tid × Option Key) :=
  starts (.conn 0) (.connection 1) 14 ++ starts (.http 0) (.page .check) 3 ++
    starts (.job 0) .begin 16

theorem crossing_run : ∃ steps cfg, Run sample (fun _ => []) none [] steps cfg ∧
    cfg.world.res.links = [.job 0, .conn 0] := by
  have hplay : ((player sample (fun _ => []) none fun _ => reached (Utf8.encode remove_app_text)).play crossing
      (initial [])).any (fun cfg => cfg.world.res.links = [.job 0, .conn 0]) = true := by
    decide +kernel
  obtain ⟨steps, cfg, run, hlinks⟩ := exists_run hplay
  exact ⟨steps, cfg, run, of_decide_eq_true hlinks⟩

theorem two_links_reached : ∃ steps cfg, Run sample (fun _ => []) none [] steps cfg ∧
    cfg.world.res.links = [.job 0, .conn 0] ∧ ¬ OneLink cfg := by
  obtain ⟨steps, cfg, run, hlinks⟩ := crossing_run
  refine ⟨steps, cfg, run, hlinks, ?_⟩
  rw [OneLink, hlinks]
  decide

theorem one_link_iff_crossing : ∃ steps cfg, Run sample (fun _ => []) none [] steps cfg ∧
    ¬ ∀ t ∈ steps, OpensAlone t.before t.label := by
  obtain ⟨steps, cfg, run, hlinks⟩ := crossing_run
  refine ⟨steps, cfg, run, fun halone => ?_⟩
  have hone := ((one_link_iff run).mpr halone).1
  rw [OneLink, hlinks] at hone
  exact absurd hone (by decide)

end Links

end AltKeeper
