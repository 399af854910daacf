import AltKeeper.Process.Exclusion

-- The two locks of the process: who has one waits for no other.
namespace AltKeeper

def Tid.is_job : Tid → Bool
  | .job _ => true
  | _ => false

-- What a thread has locked, and whether it is that of a job.
structure Holding where
  job : Bool := false
  work : Bool := false
  cache : Bool := false

def Holding.Free (s : Holding) : Prop := s.work = false ∧ s.cache = false

section Locking

def Holding.Allows (s : Holding) : Cmd → Prop
  | .lock_work => s.Free
  | .lock_cache => s.Free
  | .unlock_cache => s.cache = true
  | .spawn _ => s.job = false
  | _ => True

def Holding.advance (s : Holding) : Cmd → Holding
  | .lock_work => { s with work := true }
  | .unlock_work => { s with work := false }
  | .lock_cache => { s with cache := true }
  | .unlock_cache => { s with cache := false }
  | .unwind => { s with work := false, cache := false }
  | _ => s

def locking : Prog.Protocol Resp Holding where
  allows := Holding.Allows
  step s c _ s' := s' = s.advance c

-- The commands that have to do with the locks.
def Cmd.on_lock : Cmd → Bool
  | .lock_work => true
  | .unlock_work => true
  | .lock_cache => true
  | .unlock_cache => true
  | .unwind => true
  | _ => false

def Unlocked (c : Cmd) : Prop := c.on_lock = false

-- What a job calls.
def Alone (c : Cmd) : Prop := c.on_lock = false ∧ ∀ job, c ≠ .spawn job

variable {α : Type} {p : Act α} {s : Holding}

theorem advance_of_unlocked {c : Cmd} (h : Unlocked c) : s.advance c = s := by
  cases c <;> first | rfl | cases h

theorem unlocked_wp (hp : p.Uses Alone) : p.wp locking (fun _ s' => s' = s) s := by
  refine Prog.wp_of_uses hp fun c hc => ⟨?_, fun _ _ h => h.trans (advance_of_unlocked hc.1)⟩
  obtain ⟨hlock, hspawn⟩ := hc
  cases c <;> first | trivial | exact absurd rfl (hspawn _)

theorem visitor_wp (hp : p.Uses Unlocked) (hjob : s.job = false) :
    p.wp locking (fun _ s' => s' = s) s := by
  refine Prog.wp_of_uses hp fun c hc => ⟨?_, fun _ _ h => h.trans (advance_of_unlocked hc)⟩
  cases c <;> trivial

theorem locks_ask {c : Cmd} {f : Resp c → Act α} {post : α → Holding → Prop} (hc : s.Allows c)
    (hf : ∀ r, (f r).wp locking post (s.advance c)) : (ask c >>= f).wp locking post s := by
  refine ⟨hc, ?_⟩
  rintro r _ rfl
  exact hf r

end Locking

namespace AltServer

variable {ext : Ext} {s : Holding}

theorem alone_around {c : Cmd} (h : c.finds = true) : Alone c := by
  cases c <;> first | (cases h; done) | exact ⟨rfl, nofun⟩

theorem anisette_locks (hs : s.Free) : anisette.wp locking (fun _ s' => s' = s) s := by
  obtain ⟨job, work, cache⟩ := s
  obtain ⟨rfl, rfl⟩ := hs
  have hcached : cached_anisette.Uses Alone :=
    cached_anisette_uses ⟨rfl, nofun⟩ (fun _ => ⟨rfl, nofun⟩) ⟨rfl, nofun⟩
  refine locks_ask ⟨rfl, rfl⟩ fun _ => Prog.wp_seq (unlocked_wp hcached) ?_
  rintro reply _ rfl
  exact locks_ask rfl fun _ => rfl

-- The lock is free again after the operation, whatever became of it.
theorem with_phone_locks {α : Type} (ctx : Ctx) {op : Act (Option (Except Int64 α))} (hs : s.Free)
    (hop : op.Uses Alone) : (with_phone ext ctx op).wp locking (fun _ s' => s' = s) s := by
  obtain ⟨job, work, cache⟩ := s
  obtain ⟨rfl, rfl⟩ := hs
  have hlink : (phone_link ext ctx).Uses Alone := by
    have hquiet : ∀ _ : Str, (return () : Act Unit).Uses Alone := fun _ => trivial
    apply Prog.Uses.bind (Phone.connect_auto_uses (fun _ => alone_around) hquiet ctx.phone)
    intro r
    cases r <;> trivial
  refine locks_ask ⟨rfl, rfl⟩ fun _ => Prog.wp_seq (unlocked_wp hlink) ?_
  rintro r _ rfl
  cases r with
  | error code => exact locks_ask trivial fun _ => rfl
  | ok _ =>
      refine Prog.wp_seq (unlocked_wp hop) ?_
      rintro result _ rfl
      exact locks_ask trivial fun _ => locks_ask trivial fun _ => rfl

variable (ctx : Ctx) (req : Value)

theorem install_profiles_locks (hs : s.Free) :
    (install_profiles ext ctx req).wp locking (fun _ s' => s' = s) s := by
  unfold install_profiles
  split
  · rfl
  · rename_i blobs _
    have hall : (install_all ext ctx blobs).wp locking (fun _ s' => s' = s) s := by
      unfold install_all
      split
      · rfl
      · exact with_phone_locks ctx hs (install_blobs_uses blobs fun _ => ⟨rfl, nofun⟩)
    refine Prog.wp_seq hall ?_
    rintro (_ | _ | _) _ rfl <;> rfl

theorem remove_profiles_locks (hs : s.Free) :
    (remove_profiles ext ctx req).wp locking (fun _ s' => s' = s) s := by
  have hall : (remove_all ext ctx (wanted_bundles ext req)).wp locking (fun _ s' => s' = s) s := by
    unfold remove_all
    split
    · rfl
    · refine with_phone_locks ctx hs ⟨⟨rfl, nofun⟩, fun r => ?_⟩
      cases r with
      | error e => trivial
      | ok raw => exact remove_matching_uses _ raw fun _ => ⟨rfl, nofun⟩
  refine Prog.wp_seq hall ?_
  rintro (_ | _ | _) _ rfl <;> rfl

theorem remove_app_locks (hs : s.Free) :
    (remove_app ext ctx req).wp locking (fun _ s' => s' = s) s := by
  unfold remove_app
  split
  · rfl
  · refine Prog.wp_seq (with_phone_locks ctx hs (uninstall_uses ⟨rfl, nofun⟩ ⟨rfl, nofun⟩)) ?_
    rintro (_ | _ | _) _ rfl <;> rfl

theorem receive_and_install_locks (hs : s.Free) :
    (receive_and_install ext ctx req).wp locking (fun _ s' => s' = s) s := by
  unfold receive_and_install
  dsimp only
  split
  · rfl
  · refine locks_ask trivial fun r => ?_
    cases r with
    | expired _ => rfl
    | failed _ _ => rfl
    | bytes ipa =>
        refine Prog.wp_seq (unlocked_wp (read_frame_uses fun _ _ => ⟨rfl, nofun⟩)) ?_
        rintro r _ rfl
        rcases r with _ | _ | frame
        · rfl
        · rfl
        · dsimp only
          split
          · rfl
          · split
            · rfl
            · exact with_phone_locks ctx hs (install_app_uses (fun _ => ⟨rfl, nofun⟩)
                (fun _ => ⟨rfl, nofun⟩) ⟨rfl, nofun⟩ ipa.1)

theorem dispatch_locks (hs : s.Free) :
    (dispatch ext ctx req).wp locking (fun _ s' => s' = s) s := by
  unfold dispatch
  dsimp only
  split
  · refine Prog.wp_seq (anisette_locks hs) ?_
    rintro _ _ rfl
    rfl
  split
  · exact install_profiles_locks ctx req hs
  split
  · exact remove_profiles_locks ctx req hs
  split
  · exact remove_app_locks ctx req hs
  split
  · rfl
  split
  · refine Prog.wp_seq (receive_and_install_locks ctx req hs) ?_
    rintro (_ | _ | _) _ rfl <;> rfl
  · rfl

theorem handle_connection_locks (fuel : Nat) (hs : s.Free) :
    (handle_connection ext ctx fuel).wp locking (fun _ s' => s' = s) s :=
  handle_connection_returns
    (fun c hc => by cases c <;> first | exact ⟨trivial, fun _ _ h => h⟩ | cases hc)
    (fun req => dispatch_locks ctx req hs) fuel

end AltServer

section Threads

variable {ext : Ext} {s : Holding}

theorem connection_thread_locks (ctx : AltServer.Ctx) (fuel : Nat) (hs : s.Free) :
    (connection_thread ext ctx fuel).wp locking (fun _ s' => s'.Free) s := by
  have hbody : ((AltServer.handle_connection ext ctx fuel).interruptible .panicked id).wp locking
      (fun a s' => True ∧ (a = none → True) ∧ ∀ b, a = some b → s' = s) s :=
    Prog.wp_interruptible (c := .panicked) id
      (fun t _ => ⟨trivial, fun _ _ h => ⟨h, fun _ => trivial⟩⟩)
      (fun _ _ _ _ _ _ _ => trivial) trivial (AltServer.handle_connection_locks ctx fuel hs)
  exact Prog.wp_seq hbody fun _ _ _ => locks_ask trivial fun _ => ⟨rfl, rfl⟩

namespace Web

theorem job_thread_locks (app : App) (job : Job) (hs : s.Free) :
    (job_thread ext app job).wp locking (fun _ s' => s'.Free) s := by
  have hbody : ((run_job ext app job).interruptible .panicked id).Uses Alone := by
    refine Prog.Uses.interruptible (run_job_uses ?_ ?_ ?_ (fun _ => ⟨rfl, nofun⟩) app job) ⟨rfl, nofun⟩
    all_goals
      intro c hc
      cases c <;> first | (cases hc; done) | exact ⟨rfl, nofun⟩
  refine Prog.wp_seq (unlocked_wp hbody) ?_
  rintro result s rfl
  have hpanic : (do
      ask .unwind
      ask (.write_inner after_panic)
      ask .drop_guard : Act Unit).wp locking (fun _ s' => s'.Free) s :=
    locks_ask trivial fun _ => locks_ask trivial fun _ => locks_ask trivial fun _ => ⟨rfl, rfl⟩
  rcases result with _ | _ | _
  · exact hpanic
  · exact hpanic
  · exact locks_ask trivial fun _ => hs

theorem handle_locks (req : HttpRequest) (hjob : s.job = false) (hs : s.Free) :
    (handle ext req).wp locking (fun _ s' => s'.Free) s := by
  have hwork : ∀ c : Cmd, c.page_work = true → Unlocked c := by
    intro c hc
    cases c <;> first | (cases hc; done) | exact rfl
  have huses : (handle ext req).Uses Unlocked :=
    handle_uses hwork (fun _ => rfl) rfl (fun _ _ => rfl) (fun _ => rfl) req
  refine Prog.wp_mono (visitor_wp huses hjob) ?_
  rintro _ _ rfl
  exact hs

end Web

theorem launched_locks {addr : Option SocketAddr} {i : Tid} {w w' : World} {p : Act Unit}
    (hs : s.Free) (hjob : s.job = i.is_job) (h : launched ext addr i w p w') :
    p.wp locking (fun _ s' => s'.Free) s := by
  cases i with
  | conn n =>
      obtain ⟨fuel, rfl, -⟩ := h
      exact connection_thread_locks ⟨addr⟩ fuel hs
  | http n =>
      obtain ⟨req, rfl, -⟩ := h
      exact Web.handle_locks req hjob hs
  | job n =>
      obtain ⟨job, -, rfl, -⟩ := h
      exact Web.job_thread_locks ⟨addr⟩ job hs

end Threads

section Steps

variable {ext : Ext} {uuid : Octets → Str} {addr : Option SocketAddr} {w w' : World}
  {q : Tid → Holding} {i : Tid} {c : Cmd} {r : Resp c}

-- The locks are those that the threads believe they have.
structure Locks (w : World) (q : Tid → Holding) : Prop where
  job : ∀ i, (q i).job = i.is_job
  work : ∀ i, (q i).work = true ↔ w.res.work = some i
  cache : ∀ i, (q i).cache = true ↔ w.cache_lock = some i

theorem effect_locks (hc : Unlocked c) (h : effect uuid i w c r w') :
    w'.res.work = w.res.work ∧ w'.cache_lock = w.cache_lock := by
  cases c with
  | connect a =>
      cases r <;>
      · obtain rfl := h
        exact ⟨rfl, rfl⟩
  | try_busy =>
      obtain ⟨-, rfl⟩ := h
      split <;> exact ⟨rfl, rfl⟩
  | spawn job =>
      obtain rfl := h
      cases r <;> exact ⟨rfl, rfl⟩
  | copy_all =>
      cases r with
      | ok raw =>
          obtain ⟨-, rfl⟩ := h
          exact ⟨rfl, rfl⟩
      | error e =>
          obtain rfl := h
          exact ⟨rfl, rfl⟩
  | install blob =>
      obtain ⟨phone, -, rfl⟩ := h
      exact ⟨rfl, rfl⟩
  | remove u =>
      obtain ⟨phone, -, rfl⟩ := h
      exact ⟨rfl, rfl⟩
  | _ => first
    | (obtain rfl := h; exact ⟨rfl, rfl⟩)
    | (obtain ⟨-, rfl⟩ := h; exact ⟨rfl, rfl⟩)
    | exact nomatch hc

-- What becomes of one lock, by what becomes of it for the thread that moves.
theorem holder_update {holder holder' : Option Tid} {p : Holding → Bool} {s : Holding}
    (h : ∀ j, p (q j) = true ↔ holder = some j) (hi : p s = true ↔ holder' = some i)
    (hothers : ∀ j, j ≠ i → (holder' = some j ↔ holder = some j)) (j : Tid) :
    p (Function.update q i s j) = true ↔ holder' = some j := by
  by_cases hj : j = i
  · subst hj
    simpa using hi
  · rw [Function.update_of_ne hj, h j, hothers j hj]

theorem released_others {holder : Option Tid} (i j : Tid) (hj : j ≠ i) :
    (if holder = some i then none else holder) = some j ↔ holder = some j := by
  split
  · rename_i hheld
    rw [hheld]
    exact ⟨(nomatch ·), fun h => absurd (Option.some.inj h).symm hj⟩
  · rfl

theorem taken_others {holder : Option Tid} (i j : Tid) (hfree : holder = none) (hj : j ≠ i) :
    some i = some j ↔ holder = some j := by
  rw [hfree]
  exact ⟨fun h => absurd (Option.some.inj h).symm hj, (nomatch ·)⟩

theorem Locks.call (h : Locks w q) (hc : (q i).Allows c) (heffect : effect uuid i w c r w') :
    Locks w' (Function.update q i ((q i).advance c)) := by
  have hjob : ∀ {s : Holding}, s.job = (q i).job → ∀ j, (Function.update q i s j).job = j.is_job := by
    intro s hs j
    by_cases hj : j = i
    · subst hj
      rw [Function.update_self, hs, h.job]
    · rw [Function.update_of_ne hj, h.job]
  by_cases hlock : Unlocked c
  · obtain ⟨hwork, hcache⟩ := effect_locks hlock heffect
    rw [advance_of_unlocked hlock, Function.update_eq_self]
    exact ⟨h.job, by rw [hwork]; exact h.work, by rw [hcache]; exact h.cache⟩
  have hwork_same : ∀ {s : Holding}, s.work = (q i).work → ∀ j,
      (Function.update q i s j).work = true ↔ w.res.work = some j := fun hs =>
    holder_update h.work (by rw [hs]; exact h.work i) fun _ _ => Iff.rfl
  have hcache_same : ∀ {s : Holding}, s.cache = (q i).cache → ∀ j,
      (Function.update q i s j).cache = true ↔ w.cache_lock = some j := fun hs =>
    holder_update h.cache (by rw [hs]; exact h.cache i) fun _ _ => Iff.rfl
  cases c with
  | lock_work =>
      obtain ⟨hfree, rfl⟩ := heffect
      exact ⟨hjob rfl, holder_update h.work (by simp [Holding.advance])
        fun j hj => taken_others i j hfree hj, hcache_same rfl⟩
  | unlock_work =>
      obtain rfl := heffect
      exact ⟨hjob rfl, holder_update h.work (by simp [Holding.advance, Resources.release])
        (released_others i), hcache_same rfl⟩
  | lock_cache =>
      obtain ⟨hfree, rfl⟩ := heffect
      exact ⟨hjob rfl, hwork_same rfl, holder_update h.cache (by simp [Holding.advance])
        fun j hj => taken_others i j hfree hj⟩
  | unlock_cache =>
      obtain rfl := heffect
      have hheld := (h.cache i).mp hc
      refine ⟨hjob rfl, hwork_same rfl, holder_update h.cache (by simp [Holding.advance]) fun j hj => ?_⟩
      rw [hheld]
      exact ⟨(nomatch ·), fun hsame => absurd (Option.some.inj hsame).symm hj⟩
  | unwind =>
      obtain rfl := heffect
      refine ⟨hjob rfl, holder_update h.work ?_ (released_others i),
        holder_update h.cache ?_ (released_others i)⟩
      · simp [Holding.advance, Resources.release, Resources.unlink]
      · simp [Holding.advance]
  | _ => exact absurd rfl hlock

theorem Locks.start {p : Act Unit} (h : Locks w q) (hs : (q i).Free) (hp : launched ext addr i w p w') :
    p.wp locking (fun _ s => s.Free) (q i) ∧ Locks w' (Function.update q i (q i)) := by
  refine ⟨launched_locks hs (h.job i) hp, ?_⟩
  rw [Function.update_eq_self]
  cases i with
  | conn n =>
      obtain ⟨fuel, -, rfl⟩ := hp
      exact h
  | http n =>
      obtain ⟨req, -, rfl⟩ := hp
      exact h
  | job n =>
      obtain ⟨job, -, -, rfl⟩ := hp
      exact ⟨h.job, h.work, h.cache⟩

theorem locks_modular : Threads.Modular (process ext uuid addr) locking (fun _ _ _ _ => True) Locks
    Holding.Free where
  call h hc _ heffect := ⟨_, rfl, h.call hc heffect⟩
  start h hs hp := ⟨_, h.start hs hp⟩

end Steps

end AltKeeper
