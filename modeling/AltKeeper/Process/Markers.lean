import AltKeeper.Process.Exclusion

-- The marks of work in progress, and when an idle server shows none.
namespace AltKeeper

-- What is known of the page: by the thread with the guard, by everybody when nobody has it,
-- and by the job that is about to begin.
structure Marked (w : World) (q : Tid → Local) : Prop where
  known : ∀ i k, (q i).guard = some k → k w.inner
  idle : w.res.busy = false → Clean w.inner
  waiting : ∀ n job, (n, job) ∈ w.res.pending → job.marks.Bounds w.inner

-- The thread of a job starts whenever one is asked for.
def spawns : (c : Cmd) → Resp c → Prop
  | .spawn _, r => r = true
  | _, _ => True

section Steps

variable {ext : Ext} {uuid : Octets → Str} {addr : Option SocketAddr} {w w' : World}
  {q : Tid → Local} {i : Tid} {c : Cmd} {r : Resp c}

-- The commands that use the guard or change the page.
def Cmd.guarded : Cmd → Bool
  | .try_busy => true
  | .drop_guard => true
  | .spawn _ => true
  | .write_inner _ => true
  | _ => false

theorem effect_page (hc : c.guarded = false) (h : effect uuid i w c r w') :
    w'.inner = w.inner ∧ w'.res.busy = w.res.busy ∧ w'.res.pending = w.res.pending := by
  cases c with
  | connect a =>
      cases r <;>
      · obtain rfl := h
        exact ⟨rfl, rfl, rfl⟩
  | copy_all =>
      cases r with
      | ok raw =>
          obtain ⟨-, rfl⟩ := h
          exact ⟨rfl, rfl, rfl⟩
      | error e =>
          obtain rfl := h
          exact ⟨rfl, rfl, rfl⟩
  | install blob =>
      obtain ⟨phone, -, rfl⟩ := h
      exact ⟨rfl, rfl, rfl⟩
  | remove u =>
      obtain ⟨phone, -, rfl⟩ := h
      exact ⟨rfl, rfl, rfl⟩
  | _ => first
    | (obtain rfl := h; exact ⟨rfl, rfl, rfl⟩)
    | (obtain ⟨-, rfl⟩ := h; exact ⟨rfl, rfl, rfl⟩)
    | exact nomatch hc

theorem advance_guard {s : Local} (hc : c.guarded = false) : (s.advance c r).guard = s.guard := by
  unfold Local.advance
  split <;> first | rfl | exact nomatch hc

namespace Marked

-- A step that leaves the page and the guard alone.
theorem keep {s : Local} (h : Marked w q) (hguard : s.guard = (q i).guard)
    (hpage : w'.inner = w.inner ∧ w'.res.busy = w.res.busy ∧ w'.res.pending = w.res.pending) :
    Marked w' (Function.update q i s) := by
  obtain ⟨hinner, hbusy, hpending⟩ := hpage
  constructor
  · intro j k hk
    rw [update_same Local.guard hguard] at hk
    rw [hinner]
    exact h.known j k hk
  · rw [hinner, hbusy]
    exact h.idle
  · rw [hinner, hpending]
    exact h.waiting

-- When only thread `i` can have the guard, what it knows is all there is to show.
theorem of_single {s : Local} (hothers : ∀ j, j ≠ i → (q j).guard.isSome = false)
    (hpending : w'.res.pending = []) (hknown : ∀ k, s.guard = some k → k w'.inner)
    (hidle : w'.res.busy = false → Clean w'.inner) : Marked w' (Function.update q i s) := by
  constructor
  · intro j k hk
    by_cases hj : j = i
    · subst hj
      rw [Function.update_self] at hk
      exact hknown k hk
    · rw [Function.update_of_ne hj] at hk
      have hnone := hothers j hj
      rw [hk] at hnone
      cases hnone
  · exact hidle
  · rw [hpending]
    exact fun _ _ hmem => nomatch hmem

theorem call (h : Marked w q) (ht : Tied w.res q) (hc : (q i).Allows ext c) (hok : spawns c r)
    (heffect : effect uuid i w c r w') : Marked w' (Function.update q i ((q i).advance c r)) := by
  cases c with
  | try_busy =>
      obtain ⟨rfl, hw⟩ := heffect
      cases hbusy : w.res.busy with
      | true =>
          simp only [hbusy] at hw
          obtain rfl := hw
          exact h.keep rfl ⟨rfl, rfl, rfl⟩
      | false =>
          simp only [hbusy] at hw
          obtain rfl := hw
          obtain ⟨-, hpending, hnone⟩ := ht.guarded.of_idle hbusy
          refine of_single (fun j _ => hnone j) ?_ ?_ ?_
          · exact hpending
          · rintro k ⟨⟩
            exact h.idle hbusy
          · exact fun hfree => nomatch hfree
  | drop_guard =>
      obtain rfl := heffect
      obtain ⟨-, k, hk, hclean⟩ := hc
      have hi : (q i).guard.isSome = true := by rw [hk]; rfl
      refine of_single (fun j hj => ht.guarded.guard_of_ne hi hj) ?_ ?_ ?_
      · exact ht.guarded.none_waits hi
      · exact fun _ hnone => nomatch hnone
      · exact fun _ => hclean _ (h.known i k hk)
  | spawn job =>
      obtain rfl : r = true := hok
      obtain rfl := heffect
      obtain ⟨-, k, hk, hmarks⟩ := hc
      have hi : (q i).guard.isSome = true := by rw [hk]; rfl
      constructor
      · intro j k' hk'
        by_cases hj : j = i
        · subst hj
          simp [Local.advance] at hk'
        · have hnone := ht.guarded.guard_of_ne hi hj
          rw [Function.update_of_ne hj] at hk'
          rw [hk'] at hnone
          cases hnone
      · intro hfree
        have hbusy : w.res.busy = false := hfree
        rw [(ht.guarded.of_idle hbusy).2.2 i] at hi
        cases hi
      · intro n job' hmem
        simp only [if_true, Resources.launch, ht.guarded.none_waits hi, List.nil_append,
          List.mem_singleton, Prod.mk.injEq] at hmem
        obtain ⟨-, rfl⟩ := hmem
        exact (hmarks _ (h.known i k hk)).1
  | write_inner f =>
      obtain rfl := heffect
      obtain ⟨k, hk⟩ := Option.isSome_iff_exists.mp hc
      have hi : (q i).guard.isSome = true := hc
      refine of_single (fun j hj => ht.guarded.guard_of_ne hi hj) ?_ ?_ ?_
      · exact ht.guarded.none_waits hi
      · intro k' hk'
        simp only [Local.advance, hk, Option.map_some, Option.some.injEq] at hk'
        rw [← hk']
        exact ⟨w.inner, h.known i k hk, rfl⟩
      · intro hfree
        have hbusy : w.res.busy = false := hfree
        rw [(ht.guarded.of_idle hbusy).2.2 i] at hi
        cases hi
  | _ => exact h.keep (advance_guard rfl) (effect_page rfl heffect)

theorem start {p : Act Unit} (h : Marked w q) (ht : Tied w.res q) (hidle : (q i).Idle)
    (hp : launched ext addr i w p w') :
    ∃ s, p.wp (conduct ext) (fun _ s => s.Idle) s ∧
      Tied w'.res (Function.update q i s) ∧ Marked w' (Function.update q i s) := by
  rcases launched_conducts (ht.is_conn i) hidle hp with ⟨-, rfl, hwp⟩ | ⟨n, job, rfl, hjob, -, rfl, hwp⟩
  · refine ⟨q i, hwp, ?_, ?_⟩
    · rwa [Function.update_eq_self]
    · rwa [Function.update_eq_self]
  · have howner : Tid.job n ∈ w.res.guards := (ht.guarded.owner _).mpr (.inr ⟨n, job, rfl, hjob⟩)
    have htied := ht.begin hidle hjob
    refine ⟨_, hwp, htied, ?_⟩
    have hi : (Function.update q (.job n) { q (.job n) with guard := some job.marks.Bounds }
        (.job n)).guard.isSome = true := by simp
    refine of_single (fun j hj => ?_) ?_ ?_ ?_
    · have hnone := htied.guarded.guard_of_ne hi hj
      rwa [Function.update_of_ne hj] at hnone
    · exact htied.guarded.none_waits hi
    · rintro k ⟨⟩
      exact h.waiting n job hjob
    · exact h.idle

end Marked

end Steps

section Idle

variable {ext : Ext} {uuid : Octets → Str} {addr : Option SocketAddr} {phone : List Octets}

-- An idle server shows no work in progress.
def IdleClean (cfg : Threads.Config Tid World Resp) : Prop :=
  cfg.world.res.busy = false →
    cfg.world.inner.snapshot.checking = false ∧ cfg.world.inner.job.running = false ∧
      cfg.world.inner.login.phase ≠ .working

-- The step is not a job whose thread cannot be started.
def JobStarts : Threads.Label Tid Resp → Prop
  | .call _ ⟨c, r⟩ => spawns c r
  | .start _ => True

theorem marked_modular : Threads.Modular (process ext uuid addr) (conduct ext)
    (fun _ _ c r => spawns c r) (fun w q => Tied w.res q ∧ Marked w q) Local.Idle where
  call h hc hok heffect := ⟨_, rfl, h.1.call hc heffect, h.2.call h.1 hc hok heffect⟩
  start h hidle hp := h.2.start h.1 hidle hp

abbrev Showing (ext : Ext) : Threads.Config Tid World Resp → Prop :=
  Threads.Conforms (conduct ext) (fun w q => Tied w.res q ∧ Marked w q) Local.Idle

theorem initial_showing (phone : List Octets) : Showing ext (initial phone) := by
  have hclean : Clean {} := by
    constructor
    all_goals nofun
  refine ⟨fresh, ⟨fresh_tied, ?_, fun _ => hclean, ?_⟩, fun _ => ⟨rfl, rfl, rfl⟩⟩
  all_goals nofun

theorem Showing.idle_clean {cfg : Threads.Config Tid World Resp} (h : Showing ext cfg) :
    IdleClean cfg := by
  obtain ⟨q, ⟨-, hmarked⟩, -⟩ := h
  intro hbusy
  have hclean := hmarked.idle hbusy
  refine ⟨?_, ?_, fun h => nomatch hclean.working h⟩
  · exact eq_false_of_ne_true fun h => nomatch hclean.checking h
  · exact eq_false_of_ne_true fun h => nomatch hclean.running h

-- A job that does not start leaves its mark on an idle server.
theorem not_idle_clean_of_spawn {cfg cfg' : Threads.Config Tid World Resp} {i : Tid} {job : Job}
    (h : Showing ext cfg)
    (hstep : Threads.Step (process ext uuid addr) (.call i ⟨.spawn job, false⟩) cfg cfg') :
    ¬ IdleClean cfg' := by
  obtain ⟨q, ⟨-, hmarked⟩, hthreads⟩ := h
  obtain ⟨-, known, hknown, hmarks⟩ := hstep.allows (hthreads i)
  have hshows := (hmarks _ (hmarked.known i known hknown)).2
  cases hstep with
  | call _ heffect =>
      obtain rfl := heffect
      intro hidle
      obtain ⟨hchecking, hrunning, hphase⟩ := hidle rfl
      cases job with
      | check => exact nomatch hchecking.symm.trans hshows
      | renew force => exact nomatch hrunning.symm.trans hshows
      | login apple_id password save => exact hphase hshows

theorem jobs_start_of_idle_clean {steps : List Step} {cfg : Threads.Config Tid World Resp}
    (run : Run ext uuid addr phone steps cfg) (h : ∀ t ∈ steps, IdleClean t.after) :
    ∀ t ∈ steps, JobStarts t.label := by
  induction run with
  | nil => simp
  | @snoc steps cfg cfg' label run step ih =>
      have hsteps := ih fun t ht => h t (List.mem_append_left _ ht)
      have hcfg : Showing ext cfg := (marked_modular.run (initial_showing phone) run fun t ht => by
        have := hsteps t ht
        revert this
        cases t.label <;> exact id).1
      intro t ht
      rcases List.mem_append.mp ht with ht | ht
      · exact hsteps t ht
      · have hclean := h ⟨cfg, label, cfg'⟩ (by simp)
        rw [List.mem_singleton.mp ht]
        rcases label with ⟨i, c, r⟩ | i
        · cases c with
          | spawn job =>
              cases r with
              | true => rfl
              | false => exact absurd hclean (not_idle_clean_of_spawn hcfg step)
          | _ => trivial
        · trivial

-- In a run an idle server shows no work in progress exactly when every job it starts gets its
-- thread.
theorem idle_clean_iff {steps : List Step} {cfg : Threads.Config Tid World Resp}
    (run : Run ext uuid addr phone steps cfg) :
    (IdleClean cfg ∧ ∀ t ∈ steps, IdleClean t.before ∧ IdleClean t.after) ↔
      ∀ t ∈ steps, JobStarts t.label := by
  constructor
  · exact fun h => jobs_start_of_idle_clean run fun t ht => (h.2 t ht).2
  · intro hstarts
    obtain ⟨hcfg, hsteps⟩ := marked_modular.run (initial_showing phone) run fun t ht => by
      have := hstarts t ht
      revert this
      cases t.label <;> exact id
    refine ⟨Showing.idle_clean hcfg, fun t ht => ?_⟩
    obtain ⟨hbefore, hafter⟩ := hsteps t ht
    exact ⟨Showing.idle_clean hbefore, Showing.idle_clean hafter⟩

-- A check is asked from the page and its thread cannot be started: nothing runs, and the page
-- shows a check for good.
theorem exhausted_run : ∃ steps cfg, Run sample (fun _ => []) none [] steps cfg ∧
    cfg.world.res.busy = false ∧ cfg.world.inner.snapshot.checking = true := by
  have hplay : ((player sample (fun _ => []) none fun _ => exhausted).play
      (starts (.http 0) (.page .check) 3) (initial [])).any
      (fun cfg => !cfg.world.res.busy && cfg.world.inner.snapshot.checking) = true := by
    decide +kernel
  obtain ⟨steps, cfg, run, h⟩ := exists_run hplay
  exact ⟨steps, cfg, run, by simpa using h⟩

theorem idle_shows_check : ∃ steps cfg, Run sample (fun _ => []) none [] steps cfg ∧
    ¬ IdleClean cfg := by
  obtain ⟨steps, cfg, run, hbusy, hchecking⟩ := exhausted_run
  exact ⟨steps, cfg, run, fun hidle => nomatch hchecking.symm.trans (hidle hbusy).1⟩

theorem idle_clean_iff_exhausted : ∃ steps cfg, Run sample (fun _ => []) none [] steps cfg ∧
    ¬ ∀ t ∈ steps, JobStarts t.label := by
  obtain ⟨steps, cfg, run, hbusy, hchecking⟩ := exhausted_run
  refine ⟨steps, cfg, run, fun hstarts => ?_⟩
  have hidle := ((idle_clean_iff run).mpr hstarts).1
  exact nomatch hchecking.symm.trans (hidle hbusy).1

end Idle

end AltKeeper
