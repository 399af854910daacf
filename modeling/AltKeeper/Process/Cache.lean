import AltKeeper.Process.Locks

-- The data that AltStore asks for at every operation: made by one connection at a time, and
-- shared by those that ask while it is fresh.
namespace AltKeeper

open AltServer (ANISETTE_TTL anisette cached_anisette fresh_anisette)

-- What a thread does with the cache: away from it, with its lock, with the answer it read, or
-- with data that is still to be kept.
inductive Handling where
  | away
  | inside
  | read (answer : Option (Int × Value))
  | made (v : Value)

-- Nothing is kept, or it is too old to be given.
def Stale : Option (Int × Value) → Prop
  | none => True
  | some (age, _) => ANISETTE_TTL ≤ age

section Handling

namespace Handling

def Allows (s : Handling) : Cmd → Prop
  | .lock_cache => s = .away
  | .get_cache => s = .inside
  | .anisette_for_altstore => ∃ answer, s = .read answer ∧ Stale answer
  | .set_cache v => s = .made v
  | .unlock_cache => s ≠ .away
  | _ => True

def advance (s : Handling) : (c : Cmd) → Resp c → Handling
  | .lock_cache, _ => .inside
  | .get_cache, answer => .read answer
  | .anisette_for_altstore, .ok v => .made v
  | .anisette_for_altstore, .error _ => .inside
  | .set_cache _, _ => .inside
  | .unlock_cache, _ => .away
  | .unwind, _ => .away
  | _, _ => s

end Handling

def handling : Prog.Protocol Resp Handling where
  allows := Handling.Allows
  step s c r s' := s' = s.advance c r

-- The commands on the cache and on what it keeps.
def Cmd.on_cache : Cmd → Bool
  | .lock_cache => true
  | .get_cache => true
  | .anisette_for_altstore => true
  | .set_cache _ => true
  | .unlock_cache => true
  | _ => false

-- The commands that have nothing to do with it.
def Elsewhere (c : Cmd) : Prop := c.on_cache = false ∧ c ≠ .unwind

variable {α : Type} {p : Act α} {s : Handling}

theorem allows_elsewhere {c : Cmd} (h : c.on_cache = false) : s.Allows c := by
  cases c <;> trivial

theorem advance_elsewhere {c : Cmd} {r : Resp c} (h : Elsewhere c) : s.advance c r = s := by
  obtain ⟨hcache, hunwind⟩ := h
  cases c <;> first | rfl | exact absurd rfl hunwind | cases hcache

theorem elsewhere_wp (hp : p.Uses Elsewhere) : p.wp handling (fun _ s' => s' = s) s :=
  Prog.wp_of_uses hp fun _ hc =>
    ⟨allows_elsewhere hc.1, fun _ _ h => h.trans (advance_elsewhere hc)⟩

theorem handling_ask {c : Cmd} {f : Resp c → Act α} {post : α → Handling → Prop} (hc : s.Allows c)
    (hf : ∀ r, (f r).wp handling post (s.advance c r)) : (ask c >>= f).wp handling post s := by
  refine ⟨hc, ?_⟩
  rintro r _ rfl
  exact hf r

end Handling

section Connections

variable {ext : Ext} {ctx : AltServer.Ctx}

theorem fresh_anisette_handles {answer : Option (Int × Value)} (h : Stale answer) :
    fresh_anisette.wp handling (fun _ s => s ≠ .away) (.read answer) := by
  refine handling_ask ⟨answer, rfl, h⟩ fun r => ?_
  cases r with
  | error e => exact Handling.noConfusion
  | ok v => exact handling_ask rfl fun _ => Handling.noConfusion

theorem anisette_handles : anisette.wp handling (fun _ s => s = .away) .away := by
  have hcached : cached_anisette.wp handling (fun _ s => s ≠ .away) .inside := by
    refine handling_ask rfl fun answer => ?_
    cases answer with
    | none => exact fresh_anisette_handles trivial
    | some kept =>
        obtain ⟨age, v⟩ := kept
        dsimp only
        by_cases hage : age < ANISETTE_TTL
        · rw [if_pos hage]
          exact Handling.noConfusion
        · rw [if_neg hage]
          exact fresh_anisette_handles (Int.not_lt.mp hage)
  refine handling_ask rfl fun _ => Prog.wp_seq hcached fun reply s hs => ?_
  exact handling_ask hs fun _ => rfl

namespace AltServer

theorem elsewhere_around {c : Cmd} (h : c.around = true) : Elsewhere c := by
  cases c <;> first | (cases h; done) | exact ⟨rfl, nofun⟩

-- A request for anything else leaves the cache alone.
theorem dispatch_elsewhere {req : Value} (h : identifier req ≠ "AnisetteDataRequest".toList) :
    (dispatch ext ctx req).Uses Elsewhere := by
  unfold identifier at h
  unfold dispatch
  dsimp only
  rw [if_neg h]
  split
  · exact install_profiles_uses (fun _ => elsewhere_around) fun _ => ⟨rfl, nofun⟩
  split
  · exact remove_profiles_uses (fun _ => elsewhere_around) ⟨rfl, nofun⟩ fun _ => ⟨rfl, nofun⟩
  split
  · exact remove_app_uses (fun _ => elsewhere_around) ⟨rfl, nofun⟩ fun _ => ⟨rfl, nofun⟩
  split
  · trivial
  split
  · apply Prog.Uses.bind
    · apply receive_and_install_uses fun _ => elsewhere_around
      all_goals intros; exact ⟨rfl, nofun⟩
    · rintro (_ | _ | _) <;> trivial
  · trivial

theorem dispatch_handles (req : Value) :
    (dispatch ext ctx req).wp handling (fun _ s => s = .away) .away := by
  by_cases h : identifier req = "AnisetteDataRequest".toList
  · unfold identifier at h
    unfold dispatch
    dsimp only
    rw [if_pos h]
    exact Prog.wp_seq anisette_handles fun reply s hs => hs
  · exact elsewhere_wp (dispatch_elsewhere h)

theorem handle_connection_handles (fuel : Nat) :
    (handle_connection ext ctx fuel).wp handling (fun _ s => s = .away) .away :=
  handle_connection_returns
    (fun c hc => by cases c <;> first | exact ⟨trivial, fun _ _ h => h⟩ | cases hc)
    dispatch_handles fuel

end AltServer

theorem connection_thread_handles (fuel : Nat) :
    (connection_thread ext ctx fuel).wp handling (fun _ s => s = .away) .away := by
  have hbody : ((AltServer.handle_connection ext ctx fuel).interruptible .panicked id).wp handling
      (fun a s => True ∧ (a = none → True) ∧ ∀ b, a = some b → s = .away) .away :=
    Prog.wp_interruptible (c := .panicked) id
      (fun t _ => ⟨trivial, fun _ _ h => ⟨h, fun _ => trivial⟩⟩)
      (fun _ _ _ _ _ _ _ => trivial) trivial (AltServer.handle_connection_handles fuel)
  exact Prog.wp_seq hbody fun _ _ _ => handling_ask trivial fun _ => rfl

end Connections

section Threads

variable {ext : Ext}

namespace Web

theorem job_thread_elsewhere (app : App) (job : Job) :
    (job_thread ext app job).wp handling (fun _ s => s = .away) .away := by
  have hbody : ((run_job ext app job).interruptible .panicked id).Uses Elsewhere := by
    refine Prog.Uses.interruptible (run_job_uses ?_ ?_ ?_ (fun _ => ⟨rfl, nofun⟩) app job) ⟨rfl, nofun⟩
    all_goals
      intro c hc
      cases c <;> first | (cases hc; done) | exact ⟨rfl, nofun⟩
  refine Prog.wp_seq (elsewhere_wp hbody) ?_
  rintro result _ rfl
  have hpanic : (do
      ask .unwind
      ask (.write_inner after_panic)
      ask .drop_guard : Act Unit).wp handling (fun _ s => s = .away) .away :=
    handling_ask trivial fun _ => handling_ask trivial fun _ => handling_ask trivial fun _ => rfl
  rcases result with _ | _ | _
  · exact hpanic
  · exact hpanic
  · exact handling_ask trivial fun _ => rfl

theorem handle_elsewhere (req : HttpRequest) : (handle ext req).Uses Elsewhere := by
  refine handle_uses ?_ (fun _ => ⟨rfl, nofun⟩) ⟨rfl, nofun⟩ (fun _ _ => ⟨rfl, nofun⟩)
    (fun _ => ⟨rfl, nofun⟩) req
  intro c hc
  cases c <;> first | (cases hc; done) | exact ⟨rfl, nofun⟩

end Web

theorem launched_handles {addr : Option SocketAddr} {i : Tid} {w w' : World} {p : Act Unit}
    (h : launched ext addr i w p w') :
    p.wp handling (fun _ s => s = .away) .away ∧ w'.cache = w.cache ∧ w'.cache_lock = w.cache_lock := by
  cases i with
  | conn n =>
      obtain ⟨fuel, rfl, rfl⟩ := h
      exact ⟨connection_thread_handles fuel, rfl, rfl⟩
  | http n =>
      obtain ⟨req, rfl, rfl⟩ := h
      exact ⟨elsewhere_wp (Web.handle_elsewhere req), rfl, rfl⟩
  | job n =>
      obtain ⟨job, -, rfl, rfl⟩ := h
      exact ⟨Web.job_thread_elsewhere ⟨addr⟩ job, rfl, rfl⟩

end Threads

section Steps

-- The last answer that was read, as long as nothing else was done with the cache, and all the
-- data that was made.
structure Cached where
  last : Option (Tid × Option (Int × Value)) := none
  given : List Value := []

def Cached.note (h : Cached) : Threads.Label Tid Resp → Cached
  | .call i ⟨.get_cache, answer⟩ => { h with last := some (i, answer) }
  | .call _ ⟨.anisette_for_altstore, .ok v⟩ => { last := none, given := v :: h.given }
  | .call _ ⟨c, _⟩ => if c.on_cache then { h with last := none } else h
  | .start _ => h

-- Only the thread that has the lock handles the cache, it answers what was read last, and what
-- is kept has been made.
structure Shared (w : World × Cached) (q : Tid → Handling) : Prop where
  holder : ∀ i, q i ≠ .away ↔ w.1.cache_lock = some i
  read : ∀ i answer, q i = .read answer → w.2.last = some (i, answer)
  made : ∀ i v, q i = .made v → v ∈ w.2.given
  kept : ∀ v, w.1.cache = some v → v ∈ w.2.given

variable {ext : Ext} {uuid : Octets → Str} {addr : Option SocketAddr} {w w' : World} {h h' : Cached}
  {q : Tid → Handling} {i : Tid} {c : Cmd} {r : Resp c} {s : Handling}

theorem effect_elsewhere (hc : Elsewhere c) (heffect : effect uuid i w c r w') :
    w'.cache = w.cache ∧ w'.cache_lock = w.cache_lock := by
  obtain ⟨hcache, hunwind⟩ := hc
  cases c with
  | unwind => exact absurd rfl hunwind
  | connect a =>
      cases r <;>
      · obtain rfl := heffect
        exact ⟨rfl, rfl⟩
  | try_busy =>
      obtain ⟨-, rfl⟩ := heffect
      split <;> exact ⟨rfl, rfl⟩
  | copy_all =>
      cases r with
      | ok raw =>
          obtain ⟨-, rfl⟩ := heffect
          exact ⟨rfl, rfl⟩
      | error e =>
          obtain rfl := heffect
          exact ⟨rfl, rfl⟩
  | install blob =>
      obtain ⟨phone, -, rfl⟩ := heffect
      exact ⟨rfl, rfl⟩
  | remove u =>
      obtain ⟨phone, -, rfl⟩ := heffect
      exact ⟨rfl, rfl⟩
  | _ => first
    | (obtain rfl := heffect; exact ⟨rfl, rfl⟩)
    | (obtain ⟨-, rfl⟩ := heffect; exact ⟨rfl, rfl⟩)
    | exact nomatch hcache

theorem note_elsewhere (hc : Elsewhere c) : h.note (.call i ⟨c, r⟩) = h := by
  obtain ⟨hcache, -⟩ := hc
  cases c <;> first | rfl | cases hcache

namespace Shared

theorem others_away (hs : Shared (w, h) q) (hi : q i ≠ .away) (j : Tid) (hj : j ≠ i) : q j = .away := by
  by_contra haway
  have hlock := (hs.holder i).mp hi
  rw [(hs.holder j).mp haway] at hlock
  exact hj (Option.some.inj hlock)

-- What has to be seen to when one thread alone handles the cache.
theorem of_alone (hothers : ∀ j, j ≠ i → q j = .away) (hi : s ≠ .away ↔ w'.cache_lock = some i)
    (hlock : ∀ j, j ≠ i → w'.cache_lock ≠ some j)
    (hread : ∀ answer, s = .read answer → h'.last = some (i, answer))
    (hmade : ∀ v, s = .made v → v ∈ h'.given) (hkept : ∀ v, w'.cache = some v → v ∈ h'.given) :
    Shared (w', h') (Function.update q i s) := by
  refine ⟨fun j => ?_, fun j answer hj => ?_, fun j v hj => ?_, hkept⟩
  all_goals by_cases hji : j = i
  · subst hji
    simpa using hi
  · simp [Function.update_of_ne hji, hothers j hji, hlock j hji]
  · subst hji
    exact hread answer (by simpa using hj)
  · rw [Function.update_of_ne hji, hothers j hji] at hj
    cases hj
  · subst hji
    exact hmade v (by simpa using hj)
  · rw [Function.update_of_ne hji, hothers j hji] at hj
    cases hj

theorem unwind (hs : Shared (w, h) q) :
    Shared ({ w with
      res := (w.res.unlink i).release i
      cache_lock := if w.cache_lock = some i then none else w.cache_lock }, h)
      (Function.update q i .away) := by
  refine ⟨fun j => ?_, fun j answer hj => ?_, fun j v hj => ?_, hs.kept⟩
  all_goals by_cases hji : j = i
  · subst hji
    simp
  · rw [Function.update_of_ne hji, hs.holder j]
    exact (released_others i j hji).symm
  · simp [hji] at hj
  · rw [Function.update_of_ne hji] at hj
    exact hs.read j answer hj
  · simp [hji] at hj
  · rw [Function.update_of_ne hji] at hj
    exact hs.made j v hj

theorem call (hs : Shared (w, h) q) (hc : (q i).Allows c) (heffect : effect uuid i w c r w') :
    Shared (w', h.note (.call i ⟨c, r⟩)) (Function.update q i ((q i).advance c r)) := by
  by_cases helse : Elsewhere c
  · obtain ⟨hcache, hlock⟩ := effect_elsewhere helse heffect
    rw [advance_elsewhere helse, note_elsewhere helse, Function.update_eq_self]
    exact ⟨by rw [hlock]; exact hs.holder, hs.read, hs.made, by rw [hcache]; exact hs.kept⟩
  -- the thread that has the lock
  have hholds : ∀ {s}, q i = s → s ≠ .away →
      w.cache_lock = some i ∧ (∀ j, j ≠ i → w.cache_lock ≠ some j) ∧ ∀ j, j ≠ i → q j = .away := by
    intro s hi haway
    rw [← hi] at haway
    have hlock := (hs.holder i).mp haway
    refine ⟨hlock, fun j hj hj' => ?_, hs.others_away haway⟩
    rw [hlock] at hj'
    exact hj (Option.some.inj hj').symm
  cases c with
  | lock_cache =>
      obtain ⟨hfree, rfl⟩ := heffect
      have hothers : ∀ j, j ≠ i → q j = .away := fun j _ => by
        by_contra haway
        rw [(hs.holder j).mp haway] at hfree
        cases hfree
      exact of_alone hothers (by simp [Handling.advance]) (fun j hj => by simp [hj.symm]) nofun nofun
        hs.kept
  | get_cache =>
      obtain ⟨-, rfl⟩ := heffect
      obtain ⟨hlock, hnone, hothers⟩ := hholds hc Handling.noConfusion
      refine of_alone hothers (by simp [Handling.advance, hlock]) hnone ?_ nofun hs.kept
      rintro answer ⟨⟩
      rfl
  | anisette_for_altstore =>
      obtain rfl := heffect
      obtain ⟨answer, hi, -⟩ := hc
      obtain ⟨hlock, hnone, hothers⟩ := hholds hi Handling.noConfusion
      cases r with
      | error e => exact of_alone hothers (by simp [Handling.advance, hlock]) hnone nofun nofun hs.kept
      | ok v =>
          refine of_alone hothers (by simp [Handling.advance, hlock]) hnone nofun ?_ ?_
          · rintro v ⟨⟩
            exact List.mem_cons_self
          · exact fun v hv => List.mem_cons_of_mem _ (hs.kept v hv)
  | set_cache v =>
      obtain rfl := heffect
      obtain ⟨hlock, hnone, hothers⟩ := hholds hc Handling.noConfusion
      refine of_alone hothers (by simp [Handling.advance, hlock]) hnone nofun nofun ?_
      rintro v ⟨⟩
      exact hs.made i v hc
  | unlock_cache =>
      obtain rfl := heffect
      obtain ⟨-, -, hothers⟩ := hholds rfl hc
      exact of_alone hothers (by simp [Handling.advance]) (fun _ _ => nofun) nofun nofun hs.kept
  | unwind =>
      obtain rfl := heffect
      exact hs.unwind
  | _ => exact absurd ⟨rfl, nofun⟩ helse

end Shared

end Steps

section Record

def Label.on_cache : Threads.Label Tid Resp → Bool
  | .call _ ⟨c, _⟩ => c.on_cache
  | .start _ => false

variable {h : Cached} {label : Threads.Label Tid Resp} {steps : List Step} {i : Tid}
  {answer : Option (Int × Value)} {v : Value}

theorem note_last (hlast : (h.note label).last = some (i, answer)) :
    label = .call i ⟨.get_cache, answer⟩ ∨
      Label.on_cache label = false ∧ h.last = some (i, answer) := by
  cases label with
  | start j => exact .inr ⟨rfl, hlast⟩
  | call j e =>
      obtain ⟨c, r⟩ := e
      cases c with
      | get_cache =>
          obtain ⟨rfl, rfl⟩ := Prod.mk.inj (Option.some.inj hlast)
          exact .inl rfl
      | anisette_for_altstore => cases r <;> cases hlast
      | lock_cache | unlock_cache | set_cache => cases hlast
      | _ => exact .inr ⟨rfl, hlast⟩

theorem note_given (hgiven : v ∈ (h.note label).given) :
    v ∈ h.given ∨ ∃ j, label = .call j ⟨.anisette_for_altstore, .ok v⟩ := by
  cases label with
  | start j => exact .inl hgiven
  | call j e =>
      obtain ⟨c, r⟩ := e
      cases c with
      | anisette_for_altstore =>
          cases r with
          | error e => exact .inl hgiven
          | ok v' =>
              rcases List.mem_cons.mp hgiven with rfl | hgiven
              · exact .inr ⟨j, rfl⟩
              · exact .inl hgiven
      | _ => exact .inl hgiven

theorem last_read (hlast : (Threads.record Cached.note {} steps).last = some (i, answer)) :
    ∃ before t during, steps = before ++ t :: during ∧ t.label = .call i ⟨.get_cache, answer⟩ ∧
      ∀ u ∈ during, Label.on_cache u.label = false := by
  induction steps using List.reverseRecOn with
  | nil => cases hlast
  | append_singleton steps t ih =>
      rw [Threads.record_snoc] at hlast
      rcases note_last hlast with hread | ⟨helse, hlast⟩
      · exact ⟨steps, t, [], rfl, hread, by simp⟩
      · obtain ⟨before, u, during, rfl, hread, hduring⟩ := ih hlast
        refine ⟨before, u, during ++ [t], by simp, hread, fun v hv => ?_⟩
        rcases List.mem_append.mp hv with hv | hv
        · exact hduring v hv
        · rw [List.mem_singleton.mp hv]
          exact helse

theorem given_made (hgiven : v ∈ (Threads.record Cached.note {} steps).given) :
    ∃ t ∈ steps, ∃ j, t.label = .call j ⟨.anisette_for_altstore, .ok v⟩ := by
  induction steps using List.reverseRecOn with
  | nil => cases hgiven
  | append_singleton steps t ih =>
      rw [Threads.record_snoc] at hgiven
      rcases note_given hgiven with hgiven | hmade
      · obtain ⟨u, hu, hmade⟩ := ih hgiven
        exact ⟨u, List.mem_append_left _ hu, hmade⟩
      · exact ⟨t, by simp, hmade⟩

end Record

section Runs

variable {ext : Ext} {uuid : Octets → Str} {addr : Option SocketAddr} {phone : List Octets}

theorem shared_modular : Threads.Modular ((process ext uuid addr).noting Cached.note) handling
    (fun _ _ _ _ => True) Shared (· = .away) where
  call {i w q c r w'} hs hc _ heffect := by
    obtain ⟨w', h'⟩ := w'
    obtain ⟨heffect, rfl⟩ := heffect
    exact ⟨_, rfl, hs.call hc heffect⟩
  start {i w q p w'} hs haway hstart := by
    obtain ⟨w', h'⟩ := w'
    obtain ⟨hstart, rfl⟩ := hstart
    obtain ⟨hwp, hcache, hlock⟩ := launched_handles hstart
    refine ⟨q i, haway ▸ hwp, ?_⟩
    rw [Function.update_eq_self]
    exact ⟨by rw [hlock]; exact hs.holder, hs.read, hs.made, by rw [hcache]; exact hs.kept⟩

theorem initial_shared (phone : List Octets) :
    Threads.Conforms handling Shared (· = .away) ((initial phone).noted {}) :=
  ⟨fun _ => .away, ⟨fun _ => by simp [Threads.Config.noted, initial], nofun, nofun, nofun⟩, fun _ => rfl⟩

-- In any run the data is made anew by a thread only when the last that was done with the cache
-- was its own reading of nothing, or of data past its time; and the data that is read from the
-- cache is data that was made.
theorem anisette_shared {steps : List Step} {cfg : Threads.Config Tid World Resp}
    (run : Run ext uuid addr phone steps cfg) :
    ∀ first t rest, steps = first ++ t :: rest →
      (∀ i r, t.label = .call i ⟨.anisette_for_altstore, r⟩ →
        ∃ before u during answer, first = before ++ u :: during ∧
          u.label = .call i ⟨.get_cache, answer⟩ ∧ Stale answer ∧
          ∀ v ∈ during, Label.on_cache v.label = false) ∧
      ∀ i age v, t.label = .call i ⟨.get_cache, some (age, v)⟩ →
        ∃ u ∈ first, ∃ j, u.label = .call j ⟨.anisette_for_altstore, .ok v⟩ := by
  rintro first ⟨cfg, label, cfg'⟩ rest rfl
  obtain ⟨q, hs, hthreads⟩ := shared_modular.recorded (initial_shared phone) run.upto
    fun _ _ _ _ => by
      dsimp only [Threads.Label.Meets]
      split <;> trivial
  have hstep : Threads.Step (process ext uuid addr) label cfg cfg' :=
    run.step_mem _ (List.mem_append_right first List.mem_cons_self)
  constructor
  · rintro i r rfl
    obtain ⟨answer, hi, hstale⟩ := hstep.allows (hthreads i)
    obtain ⟨before, u, during, hfirst, hread, hduring⟩ := last_read (hs.read i answer hi)
    exact ⟨before, u, during, answer, hfirst, hread, hstale, hduring⟩
  · rintro i age v rfl
    cases hstep with
    | call is_next heffect =>
        obtain ⟨hcache, rfl⟩ := heffect
        exact given_made (hs.kept v hcache.symm)

-- Two requests for the data: the first has made it, and the second has read it.
def asking_text : Str := sample_text ["\x7b\"identifier\":", "\"AnisetteDataRequest\"\x7d"]

def asking : Ext :=
  { sample with
    from_slice bytes :=
      if bytes = Utf8.encode asking_text then some (sample_request "AnisetteDataRequest" [])
      else none }

def anisette_made : (c : Cmd) → Resp c
  | .anisette_for_altstore => .ok .null
  | c => reached (Utf8.encode asking_text) c

theorem anisette_shared_twice : ∃ steps cfg, Run asking (fun _ => []) none [] steps cfg ∧
    cfg.world.cache.isSome = true ∧ cfg.world.cache_lock = some (.conn 1) ∧
    ∀ first t rest, steps = first ++ t :: rest →
      (∀ i r, t.label = .call i ⟨.anisette_for_altstore, r⟩ →
        ∃ before u during answer, first = before ++ u :: during ∧
          u.label = .call i ⟨.get_cache, answer⟩ ∧ Stale answer ∧
          ∀ v ∈ during, Label.on_cache v.label = false) ∧
      ∀ i age v, t.label = .call i ⟨.get_cache, some (age, v)⟩ →
        ∃ u ∈ first, ∃ j, u.label = .call j ⟨.anisette_for_altstore, .ok v⟩ := by
  have hplay : ((player asking (fun _ => []) none fun _ => anisette_made).play
      (starts (.conn 0) (.connection 1) 20 ++ starts (.conn 1) (.connection 1) 10) (initial [])).any
      (fun cfg => decide (cfg.world.cache.isSome = true ∧ cfg.world.cache_lock = some (.conn 1))) =
        true := by
    decide +kernel
  obtain ⟨steps, cfg, run, hheld⟩ := exists_run hplay
  obtain ⟨hcache, hlock⟩ := of_decide_eq_true hheld
  exact ⟨steps, cfg, run, hcache, hlock, anisette_shared run⟩

end Runs

end AltKeeper
