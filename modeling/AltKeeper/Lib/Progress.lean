import AltKeeper.Lib.Threads
import Mathlib.Algebra.BigOperators.Finprod
import Mathlib.Logic.Hydra

-- Threads that go on with what was begun, without new arrivals, come to an end in any order.
namespace Threads

variable {Tid W Cmd : Type} {Resp : Cmd → Type}

section Weight

-- What is left of a program after one of its calls.
def Rest (p' p : Prog Resp Unit) : Prop := ∃ c k r, p = .call c k ∧ p' = k r

theorem rest_wellFounded : WellFounded (@Rest _ Resp) := by
  refine ⟨fun p => ?_⟩
  induction p with
  | ret a => exact ⟨_, fun _ ⟨c, k, r, hcall, _⟩ => nomatch hcall⟩
  | call c k ih =>
      refine ⟨_, ?_⟩
      rintro _ ⟨c', k', r, hcall, rfl⟩
      cases hcall
      exact ih r

-- A thread at work weighs its program, one that is done nothing.
def burden (rank : ℕ) : Prog Resp Unit → Multiset (ℕ × Prog Resp Unit)
  | .ret _ => 0
  | .call c k => {(rank, .call c k)}

def Lighter : ℕ × Prog Resp Unit → ℕ × Prog Resp Unit → Prop := Prod.Lex (· < ·) Rest

theorem lighter_wellFounded : WellFounded (Relation.CutExpand (@Lighter _ Resp)) :=
  (WellFounded.prod_lex wellFounded_lt rest_wellFounded).cutExpand

theorem mem_burden {rank : ℕ} {p : Prog Resp Unit} {e : ℕ × Prog Resp Unit} (h : e ∈ burden rank p) :
    e = (rank, p) := by
  cases p with
  | ret a => simp [burden] at h
  | call c k => simpa [burden] using h

theorem finsum_update {ι M : Type*} [DecidableEq ι] [AddCommMonoid M] {f : ι → M}
    (hf : f.support.Finite) (i : ι) (v : M) : finsum (Function.update f i v) + f i = finsum f + v := by
  classical
  have hsub : f.support ⊆ ↑(insert i hf.toFinset) := fun j hj => by simpa using .inr hj
  have hsub' : (Function.update f i v).support ⊆ ↑(insert i hf.toFinset) := by
    intro j hj
    by_cases hji : j = i
    · simp [hji]
    · exact hsub (by simpa [hji] using hj)
  have hrest : ∑ j ∈ (insert i hf.toFinset).erase i, Function.update f i v j =
      ∑ j ∈ (insert i hf.toFinset).erase i, f j :=
    Finset.sum_congr rfl fun j hj => Function.update_of_ne (Finset.ne_of_mem_erase hj) v f
  rw [finsum_eq_sum_of_support_subset _ hsub, finsum_eq_sum_of_support_subset _ hsub',
    ← Finset.add_sum_erase _ _ (Finset.mem_insert_self i _), hrest,
    ← Finset.add_sum_erase _ f (Finset.mem_insert_self i _), Function.update_self]
  rw [add_assoc, add_comm v, add_comm _ (f i)]

variable (rank : Tid → ℕ) (debt : W → Multiset ℕ)

-- Each thread with its rank, and what is queued to be started with its own.
noncomputable def weight (cfg : Config Tid W Resp) : Multiset (ℕ × Prog Resp Unit) :=
  (finsum fun i => burden (rank i) (cfg.thread i)) + (debt cfg.world).map (·, .ret ())

def AtWork (cfg : Config Tid W Resp) : Set Tid := { i | cfg.thread i ≠ .ret () }

variable {rank debt}

theorem burden_support (cfg : Config Tid W Resp) :
    (Function.support fun i => burden (rank i) (cfg.thread i)) ⊆ AtWork cfg := by
  intro i hi hdone
  exact hi (congrArg (burden (rank i)) hdone)

variable [DecidableEq Tid]

theorem weight_update {cfg : Config Tid W Resp} (hfinite : (AtWork cfg).Finite) (i : Tid)
    (p : Prog Resp Unit) (w : W) :
    weight rank debt ⟨w, Function.update cfg.thread i p⟩ + burden (rank i) (cfg.thread i) +
        (debt cfg.world).map (·, .ret ()) =
      weight rank debt cfg + burden (rank i) p + (debt w).map (·, .ret ()) := by
  have hparts : (fun j => burden (rank j) (Function.update cfg.thread i p j)) =
      Function.update (fun j => burden (rank j) (cfg.thread j)) i (burden (rank i) p) := by
    funext j
    exact Function.apply_update (fun j => burden (rank j)) cfg.thread i p j
  have hsum := finsum_update (hfinite.subset (@burden_support _ _ _ _ rank cfg)) i (burden (rank i) p)
  rw [← hparts] at hsum
  simp only [weight]
  rw [add_right_comm _ _ (burden (rank i) (cfg.thread i)), hsum]
  ac_rfl

theorem finite_update {cfg : Config Tid W Resp} (hfinite : (AtWork cfg).Finite) (i : Tid)
    (p : Prog Resp Unit) (w : W) : (AtWork ⟨w, Function.update cfg.thread i p⟩).Finite := by
  refine (hfinite.insert i).subset fun j hj => ?_
  by_cases hji : j = i
  · exact .inl hji
  · exact .inr (by simpa [AtWork, hji] using hj)

theorem Step.finite {sys : System Tid W Resp} {label : Label Tid Resp} {cfg cfg' : Config Tid W Resp}
    (step : Step sys label cfg cfg') (hfinite : (AtWork cfg).Finite) : (AtWork cfg').Finite := by
  cases step with
  | call _ _ => exact finite_update hfinite _ _ _
  | start _ _ => exact finite_update hfinite _ _ _

end Weight

section Continues

variable [DecidableEq Tid] {sys : System Tid W Resp} {queued : Tid → Prop} {rank : Tid → ℕ}
  {debt : W → Multiset ℕ}

-- A step that goes on with what was begun: a call, or the start of what is queued.
def Label.Goes (queued : Tid → Prop) : Label Tid Resp → Prop
  | .call _ _ => True
  | .start i => queued i

def Continues (sys : System Tid W Resp) (queued : Tid → Prop) (cfg cfg' : Config Tid W Resp) : Prop :=
  ∃ label, label.Goes queued ∧ Step sys label cfg cfg'

-- Where a call queues only what has a lower rank than its thread, and what is started has a lower
-- rank than it had in the queue, every step makes what is left lighter.
structure Settling (sys : System Tid W Resp) (queued : Tid → Prop) (rank : Tid → ℕ)
    (debt : W → Multiset ℕ) (inv : Config Tid W Resp → Prop) : Prop where
  keep : ∀ {cfg cfg'}, inv cfg → Continues sys queued cfg cfg' → inv cfg'
  call : ∀ {cfg i c k r w}, inv cfg → cfg.thread i = .call c k → sys.step i cfg.world c r w →
    ∃ added, debt w = debt cfg.world + added ∧ ∀ n ∈ added, n < rank i
  start : ∀ {cfg i p w}, inv cfg → queued i → sys.start i cfg.world p w →
    ∃ n, debt cfg.world = debt w + {n} ∧ rank i < n

variable {inv : Config Tid W Resp → Prop}

theorem Settling.lighter (h : Settling sys queued rank debt inv) {cfg cfg' : Config Tid W Resp}
    (hcfg : inv cfg) (hfinite : (AtWork cfg).Finite) (hstep : Continues sys queued cfg cfg') :
    Relation.CutExpand Lighter (weight rank debt cfg') (weight rank debt cfg) := by
  obtain ⟨label, hgoes, step⟩ := hstep
  cases step with
  | @call _ i c k r w is_next effect =>
      obtain ⟨added, hdebt, hadded⟩ := h.call hcfg is_next effect
      have hweight := @weight_update _ _ _ _ rank debt _ _ hfinite i (k r) w
      refine ⟨burden (rank i) (k r) + added.map (·, .ret ()), (rank i, .call c k), ?_, ?_⟩
      · intro e he
        rcases Multiset.mem_add.mp he with he | he
        · rw [mem_burden he]
          exact .right _ ⟨c, k, r, rfl, rfl⟩
        · obtain ⟨n, hn, rfl⟩ := Multiset.mem_map.mp he
          exact .left _ _ (hadded n hn)
      · rw [is_next, hdebt, Multiset.map_add] at hweight
        change _ + {(rank i, Prog.call c k)} + _ = _ at hweight
        apply add_right_cancel (hweight.trans _)
        ac_rfl
  | @start _ i p w is_done effect =>
      obtain ⟨n, hdebt, hn⟩ := h.start hcfg hgoes effect
      have hweight := @weight_update _ _ _ _ rank debt _ _ hfinite i p w
      refine ⟨burden (rank i) p, (n, .ret ()), ?_, ?_⟩
      · intro e he
        rw [mem_burden he]
        exact .left _ _ hn
      · rw [is_done, hdebt, Multiset.map_add, Multiset.map_singleton] at hweight
        rw [burden, add_zero] at hweight
        apply add_right_cancel (Eq.trans _ hweight)
        ac_rfl

-- No order of steps goes on for ever.
theorem Settling.acc (h : Settling sys queued rank debt inv) {cfg : Config Tid W Resp}
    (hcfg : inv cfg) (hfinite : (AtWork cfg).Finite) :
    Acc (fun after before => Continues sys queued before after) cfg := by
  induction hweight : weight rank debt cfg using lighter_wellFounded.induction generalizing cfg with
  | _ m ih =>
      refine ⟨_, fun cfg' hstep => ?_⟩
      have hfinite' : (AtWork cfg').Finite := by
        obtain ⟨label, -, step⟩ := hstep
        exact step.finite hfinite
      exact ih _ (hweight ▸ h.lighter hcfg hfinite hstep) (h.keep hcfg hstep) hfinite' rfl

theorem Run.finite {init : Config Tid W Resp} (hinit : (AtWork init).Finite)
    {steps : List (Transition Tid W Resp)} {cfg : Config Tid W Resp} (run : Run sys init steps cfg) :
    (AtWork cfg).Finite := by
  induction run with
  | nil => exact hinit
  | snoc run step ih => exact step.finite ih

end Continues

end Threads
