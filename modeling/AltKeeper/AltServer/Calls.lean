import AltKeeper.AltServer
import AltKeeper.Phone.Search
import AltKeeper.Process.Conduct

-- What the parts of a connection can call, and what they do around the work on the phone.
namespace AltKeeper

-- The stream of the connection, and the log of its requests.
def Cmd.on_stream : Cmd → Bool
  | .read_exact _ _ => true
  | .write_all _ => true
  | .log_request _ => true
  | _ => false

def Cmd.reads : Cmd → Bool
  | .read_exact _ _ => true
  | _ => false

def Cmd.logs : Cmd → Bool
  | .log_request _ => true
  | _ => false

def Cmd.removes : Cmd → Bool
  | .remove _ => true
  | _ => false

-- What comes before and after an operation on the phone.
def Cmd.around : Cmd → Bool
  | .lock_work => true
  | .unlock_work => true
  | .drop_link => true
  | c => c.finds

theorem Cmd.on_stream_of_reads {c : Cmd} (h : c.reads = true) : c.on_stream = true := by
  cases c <;> first | rfl | cases h

-- Everything that a request can call.
def Cmd.serves : Cmd → Bool
  | .lock_cache => true
  | .unlock_cache => true
  | .get_cache => true
  | .set_cache _ => true
  | .anisette_for_altstore => true
  | .install _ => true
  | .copy_all => true
  | .remove _ => true
  | .connect_installer => true
  | .uninstall _ => true
  | .begin_install _ => true
  | .end_install => true
  | .read_exact _ _ => true
  | .write_all _ => true
  | c => c.around

theorem Cmd.logs_of_serves {c : Cmd} (h : c.serves = true) : c.logs = false := by
  cases c <;> first | rfl | cases h

theorem Cmd.serves_of_around {c : Cmd} (h : c.around = true) : c.serves = true := by
  cases c <;> first | exact h | rfl

theorem Cmd.around_of_finds {c : Cmd} (h : c.finds = true) : c.around = true := by
  cases c <;> first | exact h | cases h

theorem Cmd.off_stream_of_around {c : Cmd} (h : c.around = true) : c.on_stream = false := by
  cases c <;> first | rfl | cases h

theorem Cmd.removes_of_around {c : Cmd} (h : c.around = true) : c.removes = false := by
  cases c <;> first | rfl | cases h

theorem Cmd.reads_of_around {c : Cmd} (h : c.around = true) : c.reads = false := by
  cases c <;> first | rfl | cases h

namespace AltServer

def FoundPhone (trace : Prog.Trace Resp) : Prop := ∃ addr, ⟨.connect addr, .linked⟩ ∈ trace

section Link

-- While the phone is searched the link is down until an attempt succeeds.
theorem link_of_foldl {trace : Prog.Trace Resp} {s : Local}
    (hfinds : ∀ e ∈ trace, e.1.finds = true) :
    (trace.foldl (fun s e => s.advance e.1 e.2) s).link = true ↔
      s.link = true ∨ FoundPhone trace := by
  induction trace generalizing s with
  | nil => simp [FoundPhone]
  | cons e trace ih =>
      rw [List.foldl_cons, ih fun e he => hfinds e (List.mem_cons_of_mem _ he)]
      have he := hfinds e List.mem_cons_self
      obtain ⟨c, r⟩ := e
      have hcons : FoundPhone (⟨c, r⟩ :: trace) ↔
          (∃ addr, (⟨.connect addr, .linked⟩ : Prog.Event Resp) = ⟨c, r⟩) ∨ FoundPhone trace := by
        simp [FoundPhone, exists_or]
      rw [hcons, ← or_assoc]
      apply or_congr_left
      cases c with
      | connect addr => cases r <;> simp [Local.advance]
      | pairing_exists => simp [Local.advance]
      | read_last_addr => simp [Local.advance]
      | write_last_addr text => simp [Local.advance]
      | discover => simp [Local.advance]
      | scan_lan port => simp [Local.advance]
      | _ => cases he

variable {ext : Ext} {ctx : Ctx} {trace : Prog.Trace Resp}

-- A connection says nothing while it looks for the phone.
theorem silent_talks : Talks ext InBody (fun s => s.is_conn = true ∧ s.work = true)
    fun _ => return () where
  link b h := h
  may_connect h := by simp [Local.MayConnect, h]
  say line _ h := ⟨h, rfl⟩

theorem phone_link_runs {r : Except Int64 Unit} (h : (phone_link ext ctx).Runs trace r) :
    (∀ e ∈ trace, e.1.finds = true) ∧ (FoundPhone trace ↔ succeeded r = true) := by
  obtain ⟨first, found, rest, rfl, hfirst, hrest⟩ := (Prog.runs_bind _ _ _ _).mp h
  have huses : (Phone.connect_auto ext (fun _ => return ()) ctx.phone).Uses (·.finds = true) := by
    apply Phone.connect_auto_uses (fun _ => id)
    exact fun _ => trivial
  have hfinds := huses.mem hfirst
  have hlink := (Prog.wp_runs (fun _ _ => rfl)
    (connect_auto_talks Quiet.in_body silent_talks ctx.phone (s := { is_conn := true, work := true })
      ⟨rfl, rfl⟩ rfl) hfirst).2
  have hfound := link_of_foldl (s := { is_conn := true, work := true }) hfinds
  rw [hlink] at hfound
  cases found with
  | ok addr =>
      obtain ⟨rfl, rfl⟩ := hrest
      rw [List.append_nil]
      exact ⟨hfinds, by simpa [succeeded] using hfound⟩
  | error e =>
      obtain ⟨rfl, rfl⟩ := hrest
      rw [List.append_nil]
      exact ⟨hfinds, by simpa [succeeded] using hfound⟩

-- An operation that is carried out, with what comes before and after it.
structure Operated {α : Type} (op : Act (Option (Except Int64 α)))
    (trace : Prog.Trace Resp) (result : Option (Except Int64 α)) : Prop where
  parts : ∃ before events after, trace = before ++ events ++ after ∧ op.Runs events result ∧
    (∀ e ∈ before ++ after, e.1.around = true) ∧ FoundPhone before

-- No phone, no operation.
structure Refused {α : Type} (trace : Prog.Trace Resp) (result : Option (Except Int64 α)) : Prop where
  result : ∃ code, result = some (.error code)
  around : ∀ e ∈ trace, e.1.around = true
  no_phone : ¬ FoundPhone trace

theorem with_phone_runs {α : Type} {op : Act (Option (Except Int64 α))}
    {result : Option (Except Int64 α)} (h : (with_phone ext ctx op).Runs trace result) :
    Refused trace result ∨ Operated op trace result := by
  obtain ⟨_, tail, rfl, htail⟩ := (Prog.runs_perform_bind _ _ _ _).mp h
  obtain ⟨first, r, rest, rfl, hfirst, hrest⟩ := (Prog.runs_bind _ _ _ _).mp htail
  obtain ⟨hfinds, hfound⟩ := phone_link_runs hfirst
  have haround : ∀ e ∈ first, e.1.around = true := fun e he => Cmd.around_of_finds (hfinds e he)
  cases r with
  | error code =>
      obtain ⟨_, _, rfl, rfl, rfl⟩ := hrest
      refine .inl ⟨⟨code, rfl⟩, ?_, ?_⟩
      · simpa [or_imp, forall_and, Cmd.around] using haround
      · simpa [FoundPhone, succeeded] using hfound
  | ok _ =>
      obtain ⟨events, result', after, rfl, hevents, hafter⟩ := (Prog.runs_bind _ _ _ _).mp hrest
      obtain ⟨_, _, rfl, _, _, rfl, rfl, rfl⟩ := hafter
      refine .inr ⟨⟨.lock_work, ()⟩ :: first, events, [⟨.drop_link, ()⟩, ⟨.unlock_work, ()⟩],
        by simp, hevents, ?_, ?_⟩
      · simpa [or_imp, forall_and, Cmd.around] using haround
      · obtain ⟨addr, hmem⟩ := hfound.mpr rfl
        exact ⟨addr, List.mem_cons_of_mem _ hmem⟩

section Uses

variable {P : Cmd → Prop} (haround : ∀ c : Cmd, c.around = true → P c)

include haround

theorem with_phone_uses {α : Type} {op : Act (Option (Except Int64 α))} (hop : op.Uses P) :
    (with_phone ext ctx op).Uses P := by
  have hlink : (phone_link ext ctx).Uses P := by
    apply Prog.Uses.bind
    · apply Phone.connect_auto_uses fun c hc => haround c (Cmd.around_of_finds hc)
      exact fun _ => trivial
    · intro r
      cases r <;> trivial
  refine ⟨haround _ rfl, fun _ => ?_⟩
  apply Prog.Uses.bind hlink
  intro r
  cases r with
  | error code => exact ⟨haround _ rfl, fun _ => trivial⟩
  | ok _ =>
      apply Prog.Uses.bind hop
      exact fun _ => ⟨haround _ rfl, fun _ => ⟨haround _ rfl, fun _ => trivial⟩⟩

end Uses

end Link

end AltServer

end AltKeeper
