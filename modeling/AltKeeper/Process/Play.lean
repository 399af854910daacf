import AltKeeper.Process

-- The process run one move at a time: what the world decides it answers, the rest is given.
namespace AltKeeper

instance {uuid : Octets → Str} {phone : List Octets} : Decidable (Distinct uuid phone) :=
  inferInstanceAs (Decidable (List.Nodup _))

section Answers

variable (uuid : Octets → Str) (outside : (c : Cmd) → Resp c)

def World.answer (w : World) : (c : Cmd) → Resp c
  | .get_cache => w.cache.map fun v => ((0 : Int), v)
  | .copy_all => .ok w.phone
  | .try_busy => !w.res.busy
  | .load_busy => w.res.busy
  | .read_inner => w.inner
  | .load_asking => w.tfa.asking
  | .load_last_error => w.tfa.last_error
  | .publish_sender => w.tfa.senders
  | .take_sender => w.tfa.sender
  | c => outside c

def with_profile (blob : Octets) (ok : Bool) (phone : List Octets) : List Octets :=
  if ok then blob :: phone else phone

-- The world after a command with that answer, none while the command has to wait.
def World.after (i : Tid) (w : World) : Cmd → Option World
  | .log_request req => some { w with requests := (i, req) :: w.requests }
  | .lock_work =>
      if w.res.work = none then some { w with res := { w.res with work := some i } } else none
  | .unlock_work => some { w with res := w.res.release i }
  | .lock_cache => if w.cache_lock = none then some { w with cache_lock := some i } else none
  | .unlock_cache => some { w with cache_lock := none }
  | .set_cache v => some { w with cache := some v }
  | .connect addr =>
      match outside (.connect addr) with
      | .linked => some { w with res := { w.res with links := i :: w.res.links } }
      | _ => some w
  | .drop_link => some { w with res := w.res.unlink i }
  | .install blob =>
      let phone := with_profile blob (succeeded (outside (.install blob))) w.phone
      if Distinct uuid phone then some { w with phone } else none
  | .remove u =>
      some { w with
        phone := if succeeded (outside (.remove u)) then w.phone.filter (uuid · ≠ u) else w.phone }
  | .try_busy => some (if w.res.busy then w else { w with res := w.res.acquire i })
  | .drop_guard => some { w with res := w.res.free i }
  | .spawn job =>
      some { w with res := if outside (.spawn job) then w.res.launch i job else w.res.free i }
  | .write_inner f => some { w with inner := f w.inner }
  | .store_asking asking => some { w with tfa := { w.tfa with asking } }
  | .store_last_error last_error => some { w with tfa := { w.tfa with last_error } }
  | .publish_sender =>
      some { w with tfa := { w.tfa with sender := some w.tfa.senders, senders := w.tfa.senders + 1 } }
  | .take_sender => some { w with tfa := { w.tfa with sender := none } }
  | .unwind =>
      some { w with
        res := (w.res.unlink i).release i
        cache_lock := if w.cache_lock = some i then none else w.cache_lock }
  | _ => some w

end Answers

-- A connection that is served for so many requests, a request to the page, or the thread of
-- a job that waits for it.
inductive Key where
  | connection (fuel : Nat)
  | page (req : Web.HttpRequest)
  | begin

def launch (ext : Ext) (addr : Option SocketAddr) : Tid → World → Key → Option (Act Unit × World)
  | .conn _, w, .connection fuel => some (connection_thread ext ⟨addr⟩ fuel, w)
  | .http _, w, .page req => some (Web.handle ext req, w)
  | .job n, w, .begin =>
      (w.res.pending.find? fun e => e.1 = n).map fun e =>
        (Web.job_thread ext ⟨addr⟩ e.2,
          { w with res := { w.res with pending := w.res.pending.filter (·.1 ≠ n) } })
  | _, _, _ => none

section Sound

variable {uuid : Octets → Str} {outside : (c : Cmd) → Resp c}

theorem installed_of_distinct {blob : Octets} {ok : Bool} {phone : List Octets}
    (h : Distinct uuid (with_profile blob ok phone)) :
    Installed uuid blob ok phone (with_profile blob ok phone) := by
  cases ok with
  | false => exact ⟨fun _ hx => hx, fun _ hx => .inl hx, nofun, h⟩
  | true =>
      refine ⟨fun x hx => List.mem_cons_of_mem _ hx, fun x hx => ?_, fun _ => List.mem_cons_self, h⟩
      rcases List.mem_cons.mp hx with rfl | hx
      · exact .inr rfl
      · exact .inl hx

theorem removed_filter (u : Str) (ok : Bool) (phone : List Octets) :
    Removed uuid u ok phone (if ok then phone.filter (uuid · ≠ u) else phone) := by
  cases ok with
  | false => exact ⟨List.Sublist.refl _, fun _ hx _ => hx, nofun⟩
  | true =>
      refine ⟨List.filter_sublist, fun x hx hne => ?_, fun _ x hx => ?_⟩
      · exact List.mem_filter.mpr ⟨hx, by simpa using hne⟩
      · simpa using (List.mem_filter.mp hx).2

-- What is played is what the commands do.
theorem after_sound (i : Tid) (w : World) (c : Cmd) {w' : World}
    (h : w.after uuid outside i c = some w') : effect uuid i w c (w.answer outside c) w' := by
  cases c with
  | lock_work | lock_cache =>
      simp only [World.after] at h
      split at h
      case isTrue hfree => exact ⟨hfree, (Option.some.inj h).symm⟩
      case isFalse => cases h
  | get_cache =>
      obtain rfl := Option.some.inj h
      exact ⟨by simp [World.answer, Function.comp_def], rfl⟩
  | connect addr =>
      simp only [World.after] at h
      simp only [World.answer]
      split at h <;> obtain rfl := Option.some.inj h
      case h_1 hlinked =>
        rw [hlinked]
        rfl
      case h_2 hfailed =>
        cases hr : outside (.connect addr) with
        | linked => exact absurd hr hfailed
        | failed e => rfl
        | expired => rfl
  | install blob =>
      simp only [World.after] at h
      split at h
      case isTrue hdistinct => exact ⟨_, installed_of_distinct hdistinct, (Option.some.inj h).symm⟩
      case isFalse => cases h
  | remove u => exact ⟨_, removed_filter u _ w.phone, (Option.some.inj h).symm⟩
  | copy_all =>
      obtain rfl := Option.some.inj h
      exact ⟨fun _ => Iff.rfl, rfl⟩
  | try_busy =>
      obtain rfl := Option.some.inj h
      refine ⟨rfl, ?_⟩
      cases hbusy : w.res.busy <;> simp [World.answer, hbusy]
  | load_busy | read_inner | load_asking | load_last_error | publish_sender | take_sender =>
      obtain rfl := Option.some.inj h
      exact ⟨rfl, rfl⟩
  | _ =>
      obtain rfl := Option.some.inj h
      rfl

theorem launch_sound {ext : Ext} {addr : Option SocketAddr} (i : Tid) (w : World) (key : Key)
    {e : Act Unit × World} (h : launch ext addr i w key = some e) :
    launched ext addr i w e.1 e.2 := by
  unfold launch at h
  split at h
  case h_1 fuel =>
    obtain rfl := Option.some.inj h
    exact ⟨fuel, rfl, rfl⟩
  case h_2 req =>
    obtain rfl := Option.some.inj h
    exact ⟨req, rfl, rfl⟩
  case h_3 _ _ _ n =>
    obtain ⟨⟨m, job⟩, hfind, rfl⟩ := Option.map_eq_some_iff.mp h
    have hn : m = n := by simpa using List.find?_some hfind
    exact ⟨job, hn ▸ List.mem_of_find?_eq_some hfind, rfl, rfl⟩
  case h_4 => cases h

end Sound

def player (ext : Ext) (uuid : Octets → Str) (addr : Option SocketAddr)
    (outside : Tid → (c : Cmd) → Resp c) : Threads.Player (process ext uuid addr) Key where
  answer i w := w.answer (outside i)
  next i w := w.after uuid (outside i) i
  launch := launch ext addr
  next_sound i w c _ h := after_sound i w c h
  launch_sound i w key _ h := launch_sound i w key h

-- A run with all the moves, when none of them has to wait.
theorem exists_run {ext : Ext} {uuid : Octets → Str} {addr : Option SocketAddr}
    {outside : Tid → (c : Cmd) → Resp c} {phone : List Octets} {moves : List (Tid × Option Key)}
    {p : Threads.Config Tid World Resp → Bool}
    (h : (((player ext uuid addr outside).play moves (initial phone)).any p) = true) :
    ∃ steps cfg, Run ext uuid addr phone steps cfg ∧ p cfg = true := by
  obtain ⟨cfg, hplay, hp⟩ := (Option.any_eq_true _ _).mp h
  obtain ⟨steps, run⟩ := (player ext uuid addr outside).play_run .nil hplay
  exact ⟨steps, cfg, run, hp⟩

section Sample

-- No thread can be made.
def exhausted : (c : Cmd) → Resp c
  | .spawn _ => false
  | c => silent c

-- The uuid that the program reads in a profile.
def uuid_of (ext : Ext) (raw : Octets) : Str :=
  match ext.parse raw with
  | some (some p) => p.uuid
  | _ => []

theorem uuid_of_eq {ext : Ext} (raw : Octets) (p : Profile.PhoneProfile)
    (h : ext.parse raw = some (some p)) : uuid_of ext raw = p.uuid := by
  rw [uuid_of, h]

-- A thread is started and makes so many calls.
def starts (i : Tid) (key : Key) (calls : Nat) : List (Tid × Option Key) :=
  (i, some key) :: List.replicate calls (i, none)

end Sample

end AltKeeper
