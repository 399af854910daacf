import AltKeeper.Lib.Progress
import AltKeeper.Process.Locks
import AltKeeper.Process.Markers

-- Whatever the process has begun can go on until it is done, in any order of its steps and whatever is
-- answered, and leaves nothing held behind.
namespace AltKeeper

section Steps

variable {ext : Ext} {uuid : Octets → Str} {addr : Option SocketAddr} {w w' : World} {i : Tid}
  {c : Cmd} {r : Resp c}

theorem effect_distinct (hdistinct : Distinct uuid w.phone) (h : effect uuid i w c r w') :
    Distinct uuid w'.phone := by
  cases c with
  | install blob =>
      obtain ⟨phone, hinstalled, rfl⟩ := h
      exact hinstalled.distinct
  | remove u =>
      obtain ⟨phone, hremoved, rfl⟩ := h
      exact hdistinct.sublist (hremoved.sublist.map uuid)
  | copy_all =>
      cases r with
      | ok raw =>
          obtain ⟨-, rfl⟩ := h
          exact hdistinct
      | error e =>
          obtain rfl := h
          exact hdistinct
  | connect a =>
      cases r <;>
      · obtain rfl := h
        exact hdistinct
  | try_busy =>
      obtain ⟨-, rfl⟩ := h
      split <;> exact hdistinct
  | _ => first
    | (obtain rfl := h; exact hdistinct)
    | (obtain ⟨-, rfl⟩ := h; exact hdistinct)

-- Only a lock that is taken makes a call wait.
theorem effect_exists (hdistinct : Distinct uuid w.phone) (hwork : c = .lock_work → w.res.work = none)
    (hcache : c = .lock_cache → w.cache_lock = none) : ∃ r w', effect uuid i w c r w' := by
  cases c with
  | lock_work => exact ⟨(), _, hwork rfl, rfl⟩
  | lock_cache => exact ⟨(), _, hcache rfl, rfl⟩
  | get_cache => exact ⟨w.cache.map fun v => ((0 : Int), v), w, by simp [Function.comp_def], rfl⟩
  | install blob =>
      exact ⟨.error [], w, w.phone, ⟨fun _ h => h, fun _ => .inl, nofun, hdistinct⟩, rfl⟩
  | remove u =>
      exact ⟨.error [], w, w.phone, ⟨List.Sublist.refl _, fun _ h _ => h, nofun⟩, rfl⟩
  | try_busy => exact ⟨_, _, rfl, rfl⟩
  | load_busy => exact ⟨_, _, rfl, rfl⟩
  | read_inner => exact ⟨_, _, rfl, rfl⟩
  | load_asking => exact ⟨_, _, rfl, rfl⟩
  | load_last_error => exact ⟨_, _, rfl, rfl⟩
  | publish_sender => exact ⟨_, _, rfl, rfl⟩
  | take_sender => exact ⟨_, _, rfl, rfl⟩
  | connect a => exact ⟨.expired, w, rfl⟩
  | copy_all => exact ⟨.error [], w, rfl⟩
  | _ => exact ⟨silent _, _, rfl⟩

theorem effect_pending (hc : ∀ job, c ≠ .spawn job) (h : effect uuid i w c r w') :
    w'.res.pending = w.res.pending := by
  cases c with
  | spawn job => exact absurd rfl (hc job)
  | try_busy =>
      obtain ⟨-, rfl⟩ := h
      split <;> rfl
  | drop_guard =>
      obtain rfl := h
      rfl
  | write_inner f =>
      obtain rfl := h
      rfl
  | _ => exact (effect_page rfl h).2.2

end Steps

section Settling

-- What goes on by itself: the calls of the threads, and the start of the jobs that wait.
def Tid.Queued (i : Tid) : Prop := i.is_job = true

def Tid.rank : Tid → ℕ
  | .job _ => 0
  | _ => 2

-- The jobs that wait weigh more than those at work, and less than what asks for them.
def waiting (w : World) : Multiset ℕ :=
  .replicate (w.res.pending.map Prod.fst).toFinset.card 1

structure Sound (ext : Ext) (uuid : Octets → Str) (cfg : Threads.Config Tid World Resp) : Prop where
  conforming : Conforming ext cfg
  locks : Threads.Conforms locking Locks Holding.Free cfg
  distinct : Distinct uuid cfg.world.phone

variable {ext : Ext} {uuid : Octets → Str} {addr : Option SocketAddr} {phone : List Octets}

theorem Sound.step {label : Threads.Label Tid Resp} {cfg cfg' : Threads.Config Tid World Resp}
    (h : Sound ext uuid cfg) (hstep : Threads.Step (process ext uuid addr) label cfg cfg') :
    Sound ext uuid cfg' := by
  refine ⟨tied_modular.step h.conforming ?_ hstep, locks_modular.step h.locks ?_ hstep, ?_⟩
  · cases label <;> trivial
  · cases label <;> trivial
  · cases hstep with
    | call _ heffect => exact effect_distinct h.distinct heffect
    | @start _ i p w _ heffect =>
        cases i with
        | conn n =>
            obtain ⟨fuel, -, rfl⟩ := heffect
            exact h.distinct
        | http n =>
            obtain ⟨req, -, rfl⟩ := heffect
            exact h.distinct
        | job n =>
            obtain ⟨job, -, -, rfl⟩ := heffect
            exact h.distinct

theorem initial_sound (hdistinct : Distinct uuid phone) : Sound ext uuid (initial phone) :=
  ⟨initial_conforms phone, ⟨fun i => { job := i.is_job },
    ⟨fun _ => rfl, fun _ => by simp [initial], fun _ => by simp [initial]⟩,
    fun _ => ⟨rfl, rfl⟩⟩, hdistinct⟩

theorem waiting_launch (w : World) (i : Tid) (job : Job) : ∃ added,
    waiting { w with res := w.res.launch i job } = waiting w + added ∧ ∀ n ∈ added, n = 1 := by
  by_cases hnew : w.res.jobs ∈ w.res.pending.map Prod.fst
  · refine ⟨0, ?_, by simp⟩
    have hsame : ((w.res.pending ++ [(w.res.jobs, job)]).map Prod.fst).toFinset =
        (w.res.pending.map Prod.fst).toFinset := by
      rw [List.map_append, List.toFinset_append]
      simpa using hnew
    simp only [waiting, Resources.launch, hsame, add_zero]
  · refine ⟨{1}, ?_, by simp⟩
    have hmore : ((w.res.pending ++ [(w.res.jobs, job)]).map Prod.fst).toFinset =
        insert w.res.jobs (w.res.pending.map Prod.fst).toFinset := by
      rw [List.map_append, List.toFinset_append, Finset.union_comm]
      rfl
    simp only [waiting, Resources.launch, hmore]
    rw [Finset.card_insert_of_notMem (by simpa using hnew), Multiset.replicate_succ, add_comm]
    rfl

theorem waiting_begin (w : World) {n : ℕ} {job : Job} (h : (n, job) ∈ w.res.pending) :
    waiting w =
      waiting { w with res := { w.res with pending := w.res.pending.filter (·.1 ≠ n) } } + {1} := by
  have hfewer : ((w.res.pending.filter (·.1 ≠ n)).map Prod.fst).toFinset =
      (w.res.pending.map Prod.fst).toFinset.erase n := by
    ext m
    simp only [List.mem_toFinset, List.mem_map, List.mem_filter, Finset.mem_erase,
      decide_eq_true_eq]
    constructor
    · rintro ⟨e, ⟨he, hne⟩, rfl⟩
      exact ⟨hne, e, he, rfl⟩
    · rintro ⟨hne, e, he, rfl⟩
      exact ⟨e, ⟨he, hne⟩, rfl⟩
  have hmem : n ∈ (w.res.pending.map Prod.fst).toFinset := by
    simpa using ⟨job, h⟩
  simp only [waiting, hfewer]
  rw [← Finset.card_erase_add_one hmem, Multiset.replicate_succ, add_comm]
  rfl

theorem process_settles : Threads.Settling (process ext uuid addr) Tid.Queued Tid.rank waiting
    (Sound ext uuid) where
  keep h hgoes := by
    obtain ⟨label, -, hstep⟩ := hgoes
    exact h.step hstep
  call := by
    intro cfg i c k r w h hnext heffect
    by_cases hspawn : ∃ job, c = .spawn job
    · obtain ⟨job, rfl⟩ := hspawn
      have hrank : i.rank = 2 := by
        obtain ⟨q, hlocks, hthreads⟩ := h.locks
        have hi := hthreads i
        rw [hnext] at hi
        have hjob : (q i).job = false := hi.1
        rw [hlocks.job] at hjob
        cases i <;> first | rfl | cases hjob
      obtain rfl := heffect
      cases r with
      | false => exact ⟨0, by simp [waiting, Resources.free], by simp⟩
      | true =>
          obtain ⟨added, hadded, hone⟩ := waiting_launch cfg.world i job
          refine ⟨added, hadded, fun n hn => ?_⟩
          rw [hone n hn, hrank]
          exact Nat.one_lt_two
    · refine ⟨0, ?_, by simp⟩
      rw [waiting, effect_pending (fun job hc => hspawn ⟨job, hc⟩) heffect, add_zero]
      rfl
  start := by
    rintro cfg (n | n | n) p w h hqueued hp
    · cases hqueued
    · cases hqueued
    · obtain ⟨job, hjob, -, rfl⟩ := hp
      exact ⟨1, waiting_begin cfg.world hjob, Nat.zero_lt_one⟩

end Settling

section Settled

-- Nothing is at work, held or waited for.
structure Settled (cfg : Threads.Config Tid World Resp) : Prop where
  done : ∀ i, cfg.thread i = .ret ()
  pending : cfg.world.res.pending = []
  busy : cfg.world.res.busy = false
  guards : cfg.world.res.guards = []
  work : cfg.world.res.work = none
  links : cfg.world.res.links = []
  cache_lock : cfg.world.cache_lock = none

variable {ext : Ext} {uuid : Octets → Str} {addr : Option SocketAddr} {phone : List Octets}

abbrev Goes (ext : Ext) (uuid : Octets → Str) (addr : Option SocketAddr) :
    Threads.Config Tid World Resp → Threads.Config Tid World Resp → Prop :=
  Threads.Continues (process ext uuid addr) Tid.Queued

theorem Sound.settled {cfg : Threads.Config Tid World Resp} (h : Sound ext uuid cfg)
    (hdone : ∀ i, cfg.thread i = .ret ()) (hpending : cfg.world.res.pending = []) : Settled cfg := by
  obtain ⟨q, htied, hthreads⟩ := h.conforming
  have hidle : ∀ i, (q i).Idle := fun i => by
    have hi := hthreads i
    rwa [hdone i] at hi
  have hguards : cfg.world.res.guards = [] := by
    refine List.eq_nil_iff_forall_not_mem.mpr fun i hi => ?_
    rcases (htied.guarded.owner i).mp hi with hguard | ⟨n, job, -, hmem⟩
    · rw [(hidle i).1] at hguard
      cases hguard
    · rw [hpending] at hmem
      cases hmem
  refine ⟨hdone, hpending, ?_, hguards, ?_, ?_, ?_⟩
  · by_contra hbusy
    exact htied.guarded.busy_iff.mp (eq_true_of_ne_false hbusy) hguards
  · refine Option.eq_none_iff_forall_ne_some.mpr fun i hi => ?_
    have hwork := (htied.locked.holder i).mpr hi
    rw [(hidle i).2.1] at hwork
    cases hwork
  · refine List.eq_nil_iff_forall_not_mem.mpr fun i hi => ?_
    have hlink := (htied.linked.holder i).mpr hi
    rw [(hidle i).2.2] at hlink
    cases hlink
  · obtain ⟨q, hlocks, hthreads⟩ := h.locks
    refine Option.eq_none_iff_forall_ne_some.mpr fun i hi => ?_
    have hfree := hthreads i
    rw [hdone i] at hfree
    have hcache := (hlocks.cache i).mpr hi
    rw [hfree.2] at hcache
    cases hcache

-- The thread can take its next step.
def Advances (ext : Ext) (uuid : Octets → Str) (addr : Option SocketAddr)
    (cfg : Threads.Config Tid World Resp) (i : Tid) : Prop :=
  ∃ e cfg', Threads.Step (process ext uuid addr) (.call i e) cfg cfg'

-- The first thread asks for a lock that the second one has.
def Awaits (cfg : Threads.Config Tid World Resp) (i j : Tid) : Prop :=
  ∃ c k, cfg.thread i = .call c k ∧
    (c = .lock_work ∧ cfg.world.res.work = some j ∨ c = .lock_cache ∧ cfg.world.cache_lock = some j)

theorem Sound.advances {cfg : Threads.Config Tid World Resp} (h : Sound ext uuid cfg) {i : Tid} {c : Cmd}
    {k : Resp c → Prog Resp Unit} (hnext : cfg.thread i = .call c k)
    (hwork : c = .lock_work → cfg.world.res.work = none)
    (hcache : c = .lock_cache → cfg.world.cache_lock = none) : Advances ext uuid addr cfg i := by
  obtain ⟨r, w, heffect⟩ := effect_exists (i := i) h.distinct hwork hcache
  exact ⟨⟨c, r⟩, _, .call hnext heffect⟩

-- Who has a lock is at work, and waits for none.
theorem Sound.holder_advances {cfg : Threads.Config Tid World Resp} (h : Sound ext uuid cfg) {j : Tid}
    (hj : cfg.world.res.work = some j ∨ cfg.world.cache_lock = some j) :
    Advances ext uuid addr cfg j := by
  obtain ⟨q, hlocks, hthreads⟩ := h.locks
  have hnot : ¬ (q j).Free := by
    rintro ⟨hwork, hcache⟩
    rcases hj with hj | hj
    · exact absurd ((hlocks.work j).mpr hj) (by simp [hwork])
    · exact absurd ((hlocks.cache j).mpr hj) (by simp [hcache])
  have hi := hthreads j
  cases hthread : cfg.thread j with
  | ret a =>
      rw [hthread] at hi
      exact absurd hi hnot
  | call c k =>
      rw [hthread] at hi
      refine h.advances hthread ?_ ?_ <;> rintro rfl <;> exact absurd hi.1 hnot

theorem Sound.advances_or_awaits {cfg : Threads.Config Tid World Resp} (h : Sound ext uuid cfg)
    {i : Tid} (hi : cfg.thread i ≠ .ret ()) :
    Advances ext uuid addr cfg i ∨ ∃ j, Awaits cfg i j ∧ Advances ext uuid addr cfg j := by
  cases hthread : cfg.thread i with
  | ret a => exact absurd hthread hi
  | call c k =>
      by_cases hheld : ∃ j, c = .lock_work ∧ cfg.world.res.work = some j ∨
          c = .lock_cache ∧ cfg.world.cache_lock = some j
      · obtain ⟨j, hheld⟩ := hheld
        exact .inr ⟨j, ⟨c, k, hthread, hheld⟩, h.holder_advances (hheld.imp And.right And.right)⟩
      · refine .inl (h.advances hthread (fun hc => ?_) fun hc => ?_)
        · exact Option.eq_none_iff_forall_ne_some.mpr fun j hj => hheld ⟨j, .inl ⟨hc, hj⟩⟩
        · exact Option.eq_none_iff_forall_ne_some.mpr fun j hj => hheld ⟨j, .inr ⟨hc, hj⟩⟩

theorem Advances.goes {cfg : Threads.Config Tid World Resp} {i : Tid} (h : Advances ext uuid addr cfg i) :
    ∃ cfg', Goes ext uuid addr cfg cfg' := by
  obtain ⟨e, cfg', hstep⟩ := h
  exact ⟨cfg', .call i e, trivial, hstep⟩

-- Where nothing goes on everything is done.
theorem Sound.stuck {cfg : Threads.Config Tid World Resp} (h : Sound ext uuid cfg)
    (hstuck : ∀ cfg', ¬ Goes ext uuid addr cfg cfg') : Settled cfg := by
  have hidle : ∀ i, ¬ Advances ext uuid addr cfg i := fun i hi => not_exists.mpr hstuck hi.goes
  have hdone : ∀ i, cfg.thread i = .ret () := by
    intro i
    by_contra hi
    rcases h.advances_or_awaits hi with hgoes | ⟨j, -, hgoes⟩
    · exact hidle i hgoes
    · exact hidle j hgoes
  refine h.settled hdone (List.eq_nil_iff_forall_not_mem.mpr ?_)
  rintro ⟨n, job⟩ hjob
  exact hstuck _ ⟨.start (.job n), rfl, .start (hdone (.job n)) ⟨job, hjob, rfl, rfl⟩⟩

theorem Run.sound (hdistinct : Distinct uuid phone) {steps : List Step}
    {cfg : Threads.Config Tid World Resp} (run : Run ext uuid addr phone steps cfg) :
    Sound ext uuid cfg :=
  (run.invariant (Sound ext uuid) (fun _ _ => True) (initial_sound hdistinct)
    (fun _ _ _ h _ hstep => h.step hstep) fun _ _ => trivial).1

-- There is always a way to the end of what was begun, by steps of what was begun.
theorem work_can_end (hdistinct : Distinct uuid phone) {steps : List Step}
    {cfg : Threads.Config Tid World Resp} (run : Run ext uuid addr phone steps cfg) :
    ∃ cfg', Relation.ReflTransGen (Goes ext uuid addr) cfg cfg' ∧ Settled cfg' := by
  have hsound := Run.sound hdistinct run
  have hfinite : (Threads.AtWork cfg).Finite := run.finite (by simp [Threads.AtWork, initial])
  have hacc : Acc (fun after before => Goes ext uuid addr before after) cfg :=
    process_settles.acc hsound hfinite
  clear run hfinite
  induction hacc with
  | intro cfg _ ih =>
      by_cases hgoes : ∃ cfg', Goes ext uuid addr cfg cfg'
      · obtain ⟨cfg', hstep⟩ := hgoes
        obtain ⟨last, hway, hsettled⟩ := ih cfg' hstep (process_settles.keep hsound hstep)
        exact ⟨last, .head hstep hway, hsettled⟩
      · exact ⟨cfg, .refl, hsound.stuck fun cfg' hstep => hgoes ⟨cfg', hstep⟩⟩

-- In every state that the process reaches each thread at work can take its next step, or waits for
-- one that can; and something that was begun can go on, or all of it is done and nothing is held.
theorem work_settles (hdistinct : Distinct uuid phone) {steps : List Step}
    {cfg : Threads.Config Tid World Resp} (run : Run ext uuid addr phone steps cfg) :
    (∀ i, cfg.thread i ≠ .ret () →
      Advances ext uuid addr cfg i ∨ ∃ j, Awaits cfg i j ∧ Advances ext uuid addr cfg j) ∧
    ((∃ cfg', Goes ext uuid addr cfg cfg') ∨ Settled cfg) := by
  have hsound := Run.sound hdistinct run
  refine ⟨fun i => hsound.advances_or_awaits, ?_⟩
  by_cases hgoes : ∃ cfg', Goes ext uuid addr cfg cfg'
  · exact .inl hgoes
  · exact .inr (hsound.stuck fun cfg' hstep => hgoes ⟨cfg', hstep⟩)

-- A connection with the phone in its hands, and a check that was asked for.
theorem work_settles_check : ∃ steps cfg, Run sample (fun _ => []) none [] steps cfg ∧
    cfg.world.res.work = some (.conn 0) ∧ cfg.world.res.guards = [.job 0] ∧
    (Advances sample (fun _ => []) none cfg (.conn 0) ∨
      ∃ j, Awaits cfg (.conn 0) j ∧ Advances sample (fun _ => []) none cfg j) ∧
    ∃ cfg', Goes sample (fun _ => []) none cfg cfg' := by
  have hplay : ((player sample (fun _ => []) none fun _ => reached (Utf8.encode remove_app_text)).play
      (starts (.conn 0) (.connection 1) 14 ++ starts (.http 0) (.page .check) 3) (initial [])).any
      (fun cfg => decide (cfg.world.res.work = some (.conn 0) ∧ cfg.world.res.guards = [.job 0])) =
        true := by
    decide +kernel
  obtain ⟨steps, cfg, run, hheld⟩ := exists_run hplay
  obtain ⟨hwork, hguards⟩ := of_decide_eq_true hheld
  have hdistinct : Distinct (fun _ => []) [] := List.nodup_nil
  obtain ⟨e, cfg', hstep⟩ : Advances sample (fun _ => []) none cfg (.conn 0) :=
    (Run.sound hdistinct run).holder_advances (.inl hwork)
  have hbusy : cfg.thread (.conn 0) ≠ .ret () := by
    cases hstep with
    | call is_next _ =>
        rw [is_next]
        exact nofun
  obtain ⟨hadvances, hgoes⟩ := work_settles hdistinct run
  refine ⟨steps, cfg, run, hwork, hguards, hadvances _ hbusy, hgoes.resolve_right fun hsettled => ?_⟩
  rw [hsettled.work] at hwork
  cases hwork

end Settled

end AltKeeper
