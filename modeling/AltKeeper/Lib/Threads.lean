import AltKeeper.Lib.Prog
import Mathlib.Data.List.Basic
import Mathlib.Data.List.Induction

-- Programs that run at the same time over one shared world, one call at a time in any order.
namespace Threads

variable {Tid W Cmd σ : Type} {Resp : Cmd → Type} [DecidableEq Tid]

-- What a call of a thread does to the world, and what a thread that has nothing left to do
-- may be started on.
structure System (Tid W : Type) {Cmd : Type} (Resp : Cmd → Type) where
  step : Tid → W → (c : Cmd) → Resp c → W → Prop
  start : Tid → W → Prog Resp Unit → W → Prop

structure Config (Tid W : Type) {Cmd : Type} (Resp : Cmd → Type) where
  world : W
  thread : Tid → Prog Resp Unit

inductive Label (Tid : Type) {Cmd : Type} (Resp : Cmd → Type) where
  | call (thread : Tid) (event : Prog.Event Resp)
  | start (thread : Tid)

inductive Step (sys : System Tid W Resp) :
    Label Tid Resp → Config Tid W Resp → Config Tid W Resp → Prop where
  | call {cfg : Config Tid W Resp} {i : Tid} {c : Cmd} {k : Resp c → Prog Resp Unit} {r : Resp c}
      {w : W} (is_next : cfg.thread i = .call c k) (effect : sys.step i cfg.world c r w) :
      Step sys (.call i ⟨c, r⟩) cfg ⟨w, Function.update cfg.thread i (k r)⟩
  | start {cfg : Config Tid W Resp} {i : Tid} {p : Prog Resp Unit} {w : W}
      (is_done : cfg.thread i = .ret ()) (effect : sys.start i cfg.world p w) :
      Step sys (.start i) cfg ⟨w, Function.update cfg.thread i p⟩

structure Transition (Tid W : Type) {Cmd : Type} (Resp : Cmd → Type) where
  before : Config Tid W Resp
  label : Label Tid Resp
  after : Config Tid W Resp

-- A run, as the list of its steps.
inductive Run (sys : System Tid W Resp) (init : Config Tid W Resp) :
    List (Transition Tid W Resp) → Config Tid W Resp → Prop where
  | nil : Run sys init [] init
  | snoc {steps : List (Transition Tid W Resp)} {cfg cfg' : Config Tid W Resp}
      {label : Label Tid Resp} (run : Run sys init steps cfg) (step : Step sys label cfg cfg') :
      Run sys init (steps ++ [⟨cfg, label, cfg'⟩]) cfg'

section Invariants

variable {sys : System Tid W Resp} {init : Config Tid W Resp}

-- What holds at the start and is kept by every step that meets `ok` holds in every state
-- of a run whose steps all meet it.
theorem Run.invariant (inv : Config Tid W Resp → Prop)
    (ok : Config Tid W Resp → Label Tid Resp → Prop)
    (h0 : inv init)
    (hstep : ∀ cfg label cfg', inv cfg → ok cfg label → Step sys label cfg cfg' → inv cfg')
    {steps : List (Transition Tid W Resp)} {cfg : Config Tid W Resp} (run : Run sys init steps cfg)
    (hok : ∀ t ∈ steps, ok t.before t.label) :
    inv cfg ∧ ∀ t ∈ steps, inv t.before ∧ inv t.after := by
  induction run with
  | nil => exact ⟨h0, by simp⟩
  | @snoc steps cfg cfg' label run step ih =>
      obtain ⟨hcfg, hsteps⟩ := ih fun t ht => hok t (List.mem_append_left _ ht)
      have hnext : inv cfg' := hstep cfg label cfg' hcfg (hok ⟨cfg, label, cfg'⟩ (by simp)) step
      refine ⟨hnext, fun t ht => ?_⟩
      rcases List.mem_append.mp ht with ht | ht
      · exact hsteps t ht
      · rw [List.mem_singleton.mp ht]
        exact ⟨hcfg, hnext⟩

theorem Run.step_mem {steps : List (Transition Tid W Resp)} {cfg : Config Tid W Resp}
    (run : Run sys init steps cfg) : ∀ t ∈ steps, Step sys t.label t.before t.after := by
  induction run with
  | nil => simp
  | @snoc steps cfg cfg' label run step ih =>
      intro t ht
      rcases List.mem_append.mp ht with ht | ht
      · exact ih t ht
      · rw [List.mem_singleton.mp ht]
        exact step

theorem Run.eq_init {cfg : Config Tid W Resp} (run : Run sys init [] cfg) : cfg = init := by
  generalize hlist : [] = list at run
  cases run with
  | nil => rfl
  | snoc run step => simp at hlist

theorem Run.last {steps : List (Transition Tid W Resp)} {t : Transition Tid W Resp}
    {cfg : Config Tid W Resp} (run : Run sys init (steps ++ [t]) cfg) :
    Run sys init steps t.before ∧ Step sys t.label t.before t.after ∧ cfg = t.after := by
  generalize hlist : steps ++ [t] = list at run
  cases run with
  | nil => simp at hlist
  | @snoc steps' cfg₀ _ label run step =>
      obtain ⟨rfl, hlast⟩ := List.append_inj' hlist rfl
      obtain rfl := List.singleton_inj.mp hlast
      exact ⟨run, step, rfl⟩

-- A run, cut before one of its steps.
theorem Run.upto {first rest : List (Transition Tid W Resp)} {t : Transition Tid W Resp}
    {cfg : Config Tid W Resp} (run : Run sys init (first ++ t :: rest) cfg) :
    Run sys init first t.before := by
  induction rest using List.reverseRecOn generalizing cfg with
  | nil => exact run.last.1
  | append_singleton rest u ih =>
      have hrun : Run sys init ((first ++ t :: rest) ++ [u]) cfg := by simpa using run
      exact ih hrun.last.1

theorem Run.next {first rest : List (Transition Tid W Resp)} {t u : Transition Tid W Resp}
    {cfg : Config Tid W Resp} (run : Run sys init (first ++ t :: u :: rest) cfg) :
    u.before = t.after := by
  have hrun : Run sys init ((first ++ [t]) ++ u :: rest) cfg := by simpa using run
  exact hrun.upto.last.2.2

-- What holds as a stretch of steps begins, and is kept by each of them, holds all through it.
theorem Run.kept (keep : Config Tid W Resp → Prop) {first during rest : List (Transition Tid W Resp)}
    {t : Transition Tid W Resp} {cfg : Config Tid W Resp}
    (run : Run sys init (first ++ t :: (during ++ rest)) cfg)
    (hstep : ∀ u ∈ during, keep u.before → keep u.after) (ht : keep t.after) :
    ∀ u ∈ during, keep u.after := by
  induction during generalizing first t with
  | nil => simp
  | cons u during ih =>
      have hu : keep u.after := by
        apply hstep u List.mem_cons_self
        rw [run.next]
        exact ht
      have hrest : Run sys init ((first ++ [t]) ++ u :: (during ++ rest)) cfg := by simpa using run
      exact List.forall_mem_cons.mpr
        ⟨hu, ih hrest (fun v hv => hstep v (List.mem_cons_of_mem _ hv)) hu⟩

end Invariants

section Play

-- A way to run a system: what is answered to a call and what the call then does, and what a
-- thread may be started on, by a key.
structure Player (sys : System Tid W Resp) (Key : Type) where
  answer : Tid → W → (c : Cmd) → Resp c
  next : Tid → W → Cmd → Option W
  launch : Tid → W → Key → Option (Prog Resp Unit × W)
  next_sound : ∀ i w c w', next i w c = some w' → sys.step i w c (answer i w c) w'
  launch_sound : ∀ i w key e, launch i w key = some e → sys.start i w e.1 e.2

variable {sys : System Tid W Resp} {Key : Type}

-- One move: a call of a thread that is at work, or the start of one that has nothing to do.
def Player.move (pl : Player sys Key) (cfg : Config Tid W Resp) (i : Tid) (key : Option Key) :
    Option (Config Tid W Resp) :=
  match key, cfg.thread i with
  | none, .call c k =>
      (pl.next i cfg.world c).map fun w =>
        ⟨w, Function.update cfg.thread i (k (pl.answer i cfg.world c))⟩
  | some key, .ret () =>
      (pl.launch i cfg.world key).map fun e => ⟨e.2, Function.update cfg.thread i e.1⟩
  | _, _ => none

def Player.play (pl : Player sys Key) : List (Tid × Option Key) → Config Tid W Resp →
    Option (Config Tid W Resp)
  | [], cfg => some cfg
  | (i, key) :: moves, cfg => (pl.move cfg i key).bind (pl.play moves)

-- What a move is in the run.
def Player.label (pl : Player sys Key) (cfg : Config Tid W Resp) (i : Tid) (key : Option Key) :
    Label Tid Resp :=
  match key, cfg.thread i with
  | none, .call c _ => .call i ⟨c, pl.answer i cfg.world c⟩
  | _, _ => .start i

theorem Player.label_step (pl : Player sys Key) {cfg cfg' : Config Tid W Resp} {i : Tid}
    {key : Option Key} (h : pl.move cfg i key = some cfg') :
    Step sys (pl.label cfg i key) cfg cfg' := by
  unfold Player.move at h
  unfold Player.label
  split at h
  · rename_i c k hthread
    obtain ⟨w, hw, rfl⟩ := Option.map_eq_some_iff.mp h
    rw [hthread]
    exact .call hthread (pl.next_sound i cfg.world c w hw)
  · rename_i key hthread
    obtain ⟨e, he, rfl⟩ := Option.map_eq_some_iff.mp h
    rw [hthread]
    exact .start hthread (pl.launch_sound i cfg.world key e he)
  · cases h

-- What is played is a run.
theorem Player.play_run (pl : Player sys Key) {init : Config Tid W Resp}
    {moves : List (Tid × Option Key)} {steps : List (Transition Tid W Resp)}
    {cfg cfg' : Config Tid W Resp} (run : Run sys init steps cfg) (h : pl.play moves cfg = some cfg') :
    ∃ steps, Run sys init steps cfg' := by
  induction moves generalizing steps cfg with
  | nil =>
      obtain rfl := Option.some.inj h
      exact ⟨steps, run⟩
  | cons m moves ih =>
      obtain ⟨cfg₁, hmove, hrest⟩ := Option.bind_eq_some_iff.mp h
      exact ih (.snoc run (pl.label_step hmove)) hrest

end Play

section Within

variable {sys : System Tid W Resp} {init : Config Tid W Resp}

-- The steps that end in a good world.
def System.within (sys : System Tid W Resp) (good : W → Prop) : System Tid W Resp where
  step i w c r w' := sys.step i w c r w' ∧ good w'
  start i w p w' := sys.start i w p w' ∧ good w'

theorem Step.within {good : W → Prop} {label : Label Tid Resp} {cfg cfg' : Config Tid W Resp}
    (step : Step sys label cfg cfg') (h : good cfg'.world) : Step (sys.within good) label cfg cfg' := by
  cases step with
  | call is_next effect => exact .call is_next ⟨effect, h⟩
  | start is_done effect => exact .start is_done ⟨effect, h⟩

-- A run that ends in a bad world has a first step into one.
theorem Run.escape (good : W → Prop) (h0 : good init.world)
    {steps : List (Transition Tid W Resp)} {cfg : Config Tid W Resp} (run : Run sys init steps cfg) :
    (Run (sys.within good) init steps cfg ∧ good cfg.world) ∨
      ∃ first t rest, steps = first ++ t :: rest ∧ Run (sys.within good) init first t.before ∧
        Run sys init first t.before ∧ Step sys t.label t.before t.after ∧ good t.before.world ∧
        ¬ good t.after.world := by
  induction run with
  | nil => exact .inl ⟨.nil, h0⟩
  | @snoc steps cfg cfg' label run step ih =>
      rcases ih with ⟨hrun, hgood⟩ | ⟨first, t, rest, rfl, hescape⟩
      · by_cases hgood' : good cfg'.world
        · exact .inl ⟨.snoc hrun (step.within hgood'), hgood'⟩
        · exact .inr ⟨steps, ⟨cfg, label, cfg'⟩, [], rfl, hrun, run, step, hgood, hgood'⟩
      · exact .inr ⟨first, t, rest ++ [⟨cfg, label, cfg'⟩], by simp, hescape⟩

end Within

section Modular

-- Each thread keeps a protocol of its own state, and `rel` ties the world to the states of
-- all threads. It is enough to look at one thread and one step at a time.
structure Modular (sys : System Tid W Resp) (P : Prog.Protocol Resp σ)
    (ok : Tid → W → (c : Cmd) → Resp c → Prop) (rel : W → (Tid → σ) → Prop)
    (final : σ → Prop) : Prop where
  call : ∀ {i w q c r w'}, rel w q → P.allows (q i) c → ok i w c r → sys.step i w c r w' →
    ∃ s, P.step (q i) c r s ∧ rel w' (Function.update q i s)
  start : ∀ {i w q p w'}, rel w q → final (q i) → sys.start i w p w' →
    ∃ s, p.wp P (fun _ => final) s ∧ rel w' (Function.update q i s)

def Conforms (P : Prog.Protocol Resp σ) (rel : W → (Tid → σ) → Prop) (final : σ → Prop)
    (cfg : Config Tid W Resp) : Prop :=
  ∃ q, rel cfg.world q ∧ ∀ i, (cfg.thread i).wp P (fun _ => final) (q i)

-- The thread that calls is allowed to.
theorem Step.allows {sys : System Tid W Resp} {P : Prog.Protocol Resp σ} {i : Tid} {c : Cmd} {r : Resp c}
    {cfg cfg' : Config Tid W Resp} (step : Step sys (.call i ⟨c, r⟩) cfg cfg')
    {post : Unit → σ → Prop} {s : σ} (hwp : (cfg.thread i).wp P post s) : P.allows s c := by
  cases step with
  | call is_next effect =>
      rw [is_next] at hwp
      exact hwp.1

def Label.Meets (ok : Tid → W → (c : Cmd) → Resp c → Prop) (w : W) : Label Tid Resp → Prop
  | .call i ⟨c, r⟩ => ok i w c r
  | .start _ => True

theorem Modular.step {sys : System Tid W Resp} {P : Prog.Protocol Resp σ}
    {ok : Tid → W → (c : Cmd) → Resp c → Prop} {rel : W → (Tid → σ) → Prop} {final : σ → Prop}
    (h : Modular sys P ok rel final) {cfg cfg' : Config Tid W Resp} {label : Label Tid Resp}
    (hcfg : Conforms P rel final cfg) (hok : label.Meets ok cfg.world)
    (hstep : Step sys label cfg cfg') : Conforms P rel final cfg' := by
  obtain ⟨q, hrel, hthreads⟩ := hcfg
  -- only thread `i` changes its program and its state
  have hother : ∀ {i : Tid} {p : Prog Resp Unit} {s : σ}, p.wp P (fun _ => final) s →
      ∀ j, (Function.update cfg.thread i p j).wp P (fun _ => final) (Function.update q i s j) := by
    intro i p s hp j
    by_cases hj : j = i
    · subst hj
      simpa using hp
    · simpa [hj] using hthreads j
  cases hstep with
  | @call _ i c k r w is_next effect =>
      have hi := hthreads i
      rw [is_next] at hi
      obtain ⟨s, hs, hrel'⟩ := h.call hrel hi.1 hok effect
      exact ⟨_, hrel', hother (hi.2 r s hs)⟩
  | @start _ i p w is_done effect =>
      have hi := hthreads i
      rw [is_done] at hi
      obtain ⟨s, hs, hrel'⟩ := h.start hrel hi effect
      exact ⟨_, hrel', hother hs⟩

-- The rule for runs: in every state of a run whose steps meet `ok` the world and the
-- threads are in agreement.
theorem Modular.run {sys : System Tid W Resp} {P : Prog.Protocol Resp σ}
    {ok : Tid → W → (c : Cmd) → Resp c → Prop} {rel : W → (Tid → σ) → Prop} {final : σ → Prop}
    (h : Modular sys P ok rel final) {init : Config Tid W Resp}
    (hinit : Conforms P rel final init)
    {steps : List (Transition Tid W Resp)} {cfg : Config Tid W Resp} (run : Run sys init steps cfg)
    (hok : ∀ t ∈ steps, t.label.Meets ok t.before.world) :
    Conforms P rel final cfg ∧
      ∀ t ∈ steps, Conforms P rel final t.before ∧ Conforms P rel final t.after :=
  run.invariant (Conforms P rel final) (fun cfg label => label.Meets ok cfg.world) hinit
    (fun _ _ _ hcfg hmeets hstep => h.step hcfg hmeets hstep) hok

end Modular

section Record

variable {H : Type} {note : H → Label Tid Resp → H} {h₀ : H}

-- The system with a record of its steps beside the world.
def System.noting (sys : System Tid W Resp) (note : H → Label Tid Resp → H) :
    System Tid (W × H) Resp where
  step i w c r w' := sys.step i w.1 c r w'.1 ∧ w'.2 = note w.2 (.call i ⟨c, r⟩)
  start i w p w' := sys.start i w.1 p w'.1 ∧ w'.2 = note w.2 (.start i)

def Config.noted (cfg : Config Tid W Resp) (h : H) : Config Tid (W × H) Resp :=
  ⟨(cfg.world, h), cfg.thread⟩

theorem Step.noting {sys : System Tid W Resp} {label : Label Tid Resp} {cfg cfg' : Config Tid W Resp}
    (step : Step sys label cfg cfg') (h : H) :
    Step (sys.noting note) label (cfg.noted h) (cfg'.noted (note h label)) := by
  cases step with
  | call is_next effect => exact .call (w := (_, _)) is_next ⟨effect, rfl⟩
  | start is_done effect => exact .start (w := (_, _)) is_done ⟨effect, rfl⟩

def record (note : H → Label Tid Resp → H) (h₀ : H) (steps : List (Transition Tid W Resp)) : H :=
  (steps.map (·.label)).foldl note h₀

omit [DecidableEq Tid] in
theorem record_snoc (steps : List (Transition Tid W Resp)) (t : Transition Tid W Resp) :
    record note h₀ (steps ++ [t]) = note (record note h₀ steps) t.label := by
  simp [record]

-- What is said of a step, with the record of those before it, holds all through the run.
def Throughout (ok : H → W → Label Tid Resp → Prop) (note : H → Label Tid Resp → H) (h₀ : H)
    (steps : List (Transition Tid W Resp)) : Prop :=
  ∀ first t rest, steps = first ++ t :: rest → ok (record note h₀ first) t.before.world t.label

omit [DecidableEq Tid] in
theorem Throughout.before {ok : H → W → Label Tid Resp → Prop} {first rest : List (Transition Tid W Resp)}
    (h : Throughout ok note h₀ (first ++ rest)) : Throughout ok note h₀ first := by
  rintro before t after rfl
  exact h before t (after ++ rest) (by simp)

-- The rule for runs, when what a step has to meet depends on those before it.
theorem Modular.recorded {sys : System Tid W Resp} {P : Prog.Protocol Resp σ}
    {ok : Tid → W × H → (c : Cmd) → Resp c → Prop} {rel : W × H → (Tid → σ) → Prop} {final : σ → Prop}
    (h : Modular (sys.noting note) P ok rel final) {init : Config Tid W Resp}
    (hinit : Conforms P rel final (init.noted h₀))
    {steps : List (Transition Tid W Resp)} {cfg : Config Tid W Resp} (run : Run sys init steps cfg)
    (hok : Throughout (fun h w label => label.Meets ok (w, h)) note h₀ steps) :
    Conforms P rel final (cfg.noted (record note h₀ steps)) := by
  induction run with
  | nil => exact hinit
  | @snoc steps cfg cfg' label run step ih =>
      have hcfg := ih hok.before
      rw [record_snoc]
      exact h.step hcfg (hok steps ⟨cfg, label, cfg'⟩ [] rfl) (step.noting _)

omit [DecidableEq Tid] in
theorem Throughout.snoc {ok : H → W → Label Tid Resp → Prop} {steps : List (Transition Tid W Resp)}
    {t : Transition Tid W Resp} (h : Throughout ok note h₀ steps)
    (ht : ok (record note h₀ steps) t.before.world t.label) :
    Throughout ok note h₀ (steps ++ [t]) := by
  intro first u rest hsplit
  rcases List.eq_nil_or_concat' rest with rfl | ⟨rest, v, rfl⟩
  · obtain ⟨rfl, hlast⟩ := List.append_inj' hsplit rfl
    obtain rfl := List.singleton_inj.mp hlast
    exact ht
  · have hsplit' : steps ++ [t] = (first ++ u :: rest) ++ [v] := by simpa using hsplit
    exact h first u rest (List.append_inj' hsplit' rfl).1

section Replay

variable {sys : System Tid W Resp} {Key : Type}

-- Plays the moves as long as each passes a test on the record so far, and keeps the record.
def Player.replay (pl : Player sys Key) (note : H → Label Tid Resp → H)
    (ok : H → Label Tid Resp → Bool) :
    List (Tid × Option Key) → H → Config Tid W Resp → Option (H × Config Tid W Resp)
  | [], h, cfg => some (h, cfg)
  | (i, key) :: moves, h, cfg =>
      if ok h (pl.label cfg i key) then
        (pl.move cfg i key).bind (pl.replay note ok moves (note h (pl.label cfg i key)))
      else none

-- What is replayed is a run whose steps all pass.
theorem Player.replay_run (pl : Player sys Key) {ok : H → Label Tid Resp → Bool}
    {init : Config Tid W Resp} {moves : List (Tid × Option Key)} {h' : H}
    {steps : List (Transition Tid W Resp)} {cfg cfg' : Config Tid W Resp} (run : Run sys init steps cfg)
    (hok : Throughout (fun h _ label => ok h label = true) note h₀ steps)
    (h : pl.replay note ok moves (record note h₀ steps) cfg = some (h', cfg')) :
    ∃ steps, Run sys init steps cfg' ∧
      Throughout (fun h _ label => ok h label = true) note h₀ steps ∧ record note h₀ steps = h' := by
  induction moves generalizing steps cfg with
  | nil =>
      obtain ⟨rfl, rfl⟩ := Prod.mk.inj (Option.some.inj h)
      exact ⟨steps, run, hok, rfl⟩
  | cons m moves ih =>
      obtain ⟨i, key⟩ := m
      unfold Player.replay at h
      split at h
      case isFalse => cases h
      case isTrue hpass =>
        obtain ⟨cfg₁, hmove, hrest⟩ := Option.bind_eq_some_iff.mp h
        refine ih (.snoc run (pl.label_step hmove)) (hok.snoc hpass) ?_
        rwa [record_snoc]

end Replay

end Record

end Threads
