import AltKeeper.AltServer.Operations

-- The two streams of a connection as a run leaves them: what is taken from one, what is
-- written to the other, and what each function reads.
namespace AltKeeper.AltServer

section Streams

-- What a read takes from the stream, successful or not.
def taken_by {count : Nat} : ReadOutcome count → Nat
  | .bytes _ => count
  | .expired lost => lost
  | .failed _ lost => lost

def taken : Prog.Trace Resp → Nat
  | [] => 0
  | ⟨.read_exact _ _, r⟩ :: trace => taken_by r + taken trace
  | _ :: trace => taken trace

def written : Prog.Trace Resp → List Octets
  | [] => []
  | ⟨.write_all bytes, _⟩ :: trace => bytes :: written trace
  | _ :: trace => written trace

-- The reads of the trace, each answered by `rule` from what the stream still holds.
def Reads (rule : (count : Nat) → Octets → ReadOutcome count → Prop) :
    Octets → Prog.Trace Resp → Prop
  | _, [] => True
  | s, ⟨.read_exact count _, r⟩ :: trace => rule count s r ∧ Reads rule (s.drop (taken_by r)) trace
  | s, _ :: trace => Reads rule s trace

-- What happened after each request was logged and before the next one was.
def segments : Prog.Trace Resp → List (Value × Prog.Trace Resp)
  | [] => []
  | ⟨.log_request req, _⟩ :: trace => (req, trace.takeWhile (!·.1.logs)) :: segments trace
  | _ :: trace => segments trace

variable {rule : (count : Nat) → Octets → ReadOutcome count → Prop}

@[simp] theorem taken_append (first rest : Prog.Trace Resp) :
    taken (first ++ rest) = taken first + taken rest := by
  induction first with
  | nil => simp [taken]
  | cons e first ih =>
      obtain ⟨c, r⟩ := e
      cases c <;> simp only [List.cons_append, taken, ih, Nat.add_assoc]

@[simp] theorem written_append (first rest : Prog.Trace Resp) :
    written (first ++ rest) = written first ++ written rest := by
  induction first with
  | nil => rfl
  | cons e first ih =>
      obtain ⟨c, r⟩ := e
      cases c <;> simp only [List.cons_append, written, ih]

theorem reads_append (s : Octets) (first rest : Prog.Trace Resp) :
    Reads rule s (first ++ rest) ↔ Reads rule s first ∧ Reads rule (s.drop (taken first)) rest := by
  induction first generalizing s with
  | nil => simp [Reads, taken]
  | cons e first ih =>
      obtain ⟨c, r⟩ := e
      cases c <;> simp only [List.cons_append, taken, Reads, ih, List.drop_drop, and_assoc]

-- A part of a trace without calls on the stream.
def OffStream (trace : Prog.Trace Resp) : Prop := ∀ e ∈ trace, e.1.on_stream = false

theorem taken_of_no_reads {trace : Prog.Trace Resp} (h : ∀ e ∈ trace, e.1.reads = false) :
    taken trace = 0 := by
  apply Prog.Trace.skip_all taken (·.reads = false) _ h
  intro c r rest hc
  cases c <;> first | rfl | cases hc

theorem OffStream.no_reads {trace : Prog.Trace Resp} (h : OffStream trace) :
    ∀ e ∈ trace, e.1.reads = false := by
  rintro ⟨c, r⟩ he
  have := h ⟨c, r⟩ he
  cases c <;> first | rfl | cases this

theorem OffStream.written {trace : Prog.Trace Resp} (h : OffStream trace) : written trace = [] := by
  apply Prog.Trace.skip_all AltServer.written (·.on_stream = false) _ h
  intro c r rest hc
  cases c <;> first | rfl | cases hc

def Unlogged (trace : Prog.Trace Resp) : Prop := ∀ e ∈ trace, e.1.logs = false

theorem OffStream.unlogged {trace : Prog.Trace Resp} (h : OffStream trace) : Unlogged trace := by
  rintro ⟨c, r⟩ he
  have := h ⟨c, r⟩ he
  cases c <;> first | rfl | cases this

theorem segments_append {first : Prog.Trace Resp} (h : Unlogged first) (rest : Prog.Trace Resp) :
    segments (first ++ rest) = segments rest := by
  apply Prog.Trace.skip segments (·.logs = false) _ h
  intro c r rest hc
  cases c <;> first | rfl | cases hc

theorem takeWhile_append {first : Prog.Trace Resp} (h : Unlogged first) (rest : Prog.Trace Resp) :
    (first ++ rest).takeWhile (!·.1.logs) = first ++ rest.takeWhile (!·.1.logs) :=
  List.takeWhile_append_of_pos fun e he => by simp [h e he]

-- What comes before the first request of a trace.
def preamble (trace : Prog.Trace Resp) : Prog.Trace Resp := trace.takeWhile (!·.1.logs)

theorem preamble_of_unlogged {trace : Prog.Trace Resp} (h : Unlogged trace) : preamble trace = trace := by
  have happend := takeWhile_append h []
  simpa [preamble] using happend

theorem segments_of_unlogged {trace : Prog.Trace Resp} (h : Unlogged trace) : segments trace = [] := by
  have happend := segments_append h []
  simpa [segments] using happend

section Written

variable {bytes : Octets} {r : Except Str Unit} {rest : Prog.Trace Resp}

@[simp] theorem preamble_write :
    preamble (⟨.write_all bytes, r⟩ :: rest) = ⟨.write_all bytes, r⟩ :: preamble rest := by
  simp [preamble, Cmd.logs]

@[simp] theorem segments_write : segments (⟨.write_all bytes, r⟩ :: rest) = segments rest := rfl

end Written

section Served

variable {head events rest : Prog.Trace Resp} {req : Value} (hhead : Unlogged head)

include hhead

theorem preamble_of_logged : preamble (head ++ ⟨.log_request req, ()⟩ :: rest) = head := by
  rw [preamble, takeWhile_append hhead]
  simp [Cmd.logs]

theorem segments_served (hevents : Unlogged events) :
    segments (head ++ ⟨.log_request req, ()⟩ :: (events ++ rest)) =
      (req, events ++ preamble rest) :: segments rest := by
  rw [segments_append hhead, segments, segments_append hevents, takeWhile_append hevents]
  rfl

theorem segments_last (hevents : Unlogged events) :
    segments (head ++ ⟨.log_request req, ()⟩ :: events) = [(req, events)] := by
  have hserved : segments (head ++ ⟨.log_request req, ()⟩ :: (events ++ [])) =
      (req, events ++ preamble []) :: segments [] := segments_served hhead hevents
  simpa [preamble, segments] using hserved

end Served

end Streams

section Frames

-- What a frame is read from.
inductive FrameRead : Prog.Trace Resp → Except Str (Option Octets) → Prop
  | no_header {r : ReadOutcome 4} {got : Except Str (Option Octets)} (cut : ∀ b, r ≠ .bytes b)
      (none_got : ∀ frame, got ≠ .ok (some frame)) :
      FrameRead [⟨.read_exact 4 IO_TIMEOUT, r⟩] got
  | bad_length {header : { bytes : Octets // bytes.length = 4 }} {e : Str}
      (bad : i32_from_le_bytes header.1 ≤ 0 ∨ (MAX_JSON : Int) < i32_from_le_bytes header.1) :
      FrameRead [⟨.read_exact 4 IO_TIMEOUT, .bytes header⟩] (.error e)
  | no_body {header : { bytes : Octets // bytes.length = 4 }} {count : Nat}
      {r : ReadOutcome count} {e : Str} (length : i32_from_le_bytes header.1 = count)
      (positive : 0 < count) (bounded : count ≤ MAX_JSON) (cut : ∀ b, r ≠ .bytes b) :
      FrameRead [⟨.read_exact 4 IO_TIMEOUT, .bytes header⟩, ⟨.read_exact count IO_TIMEOUT, r⟩]
        (.error e)
  | frame {header : { bytes : Octets // bytes.length = 4 }} {count : Nat}
      {body : { bytes : Octets // bytes.length = count }}
      (length : i32_from_le_bytes header.1 = count) (positive : 0 < count)
      (bounded : count ≤ MAX_JSON) :
      FrameRead [⟨.read_exact 4 IO_TIMEOUT, .bytes header⟩,
        ⟨.read_exact count IO_TIMEOUT, .bytes body⟩] (.ok (some body.1))

theorem read_frame_runs {trace : Prog.Trace Resp} {got : Except Str (Option Octets)}
    (h : read_frame.Runs trace got) : FrameRead trace got := by
  obtain ⟨r, rest, rfl, hrest⟩ := (Prog.runs_perform_bind _ _ _ _).mp h
  cases r with
  | expired lost =>
      obtain ⟨rfl, rfl⟩ := hrest
      exact .no_header nofun nofun
  | failed kind lost =>
      dsimp only at hrest
      split at hrest
      all_goals
        obtain ⟨rfl, rfl⟩ := hrest
        exact .no_header nofun nofun
  | bytes header =>
      dsimp only at hrest
      split at hrest
      case isTrue hbad =>
        obtain ⟨rfl, rfl⟩ := hrest
        exact .bad_length hbad
      case isFalse hgood =>
        have hlength : i32_from_le_bytes header.1 = (i32_from_le_bytes header.1).toNat := by omega
        obtain ⟨r, rest', rfl, hrest'⟩ := (Prog.runs_perform_bind _ _ _ _).mp hrest
        cases r with
        | expired lost =>
            obtain ⟨rfl, rfl⟩ := hrest'
            exact .no_body hlength (by omega) (by omega) nofun
        | failed kind lost =>
            obtain ⟨rfl, rfl⟩ := hrest'
            exact .no_body hlength (by omega) (by omega) nofun
        | bytes body =>
            obtain ⟨rfl, rfl⟩ := hrest'
            exact .frame hlength (by omega) (by omega)

theorem FrameRead.unlogged {trace : Prog.Trace Resp} {got : Except Str (Option Octets)}
    (h : FrameRead trace got) : Unlogged trace := by
  cases h <;> simp [Unlogged, Cmd.logs]

theorem FrameRead.written {trace : Prog.Trace Resp} {got : Except Str (Option Octets)}
    (h : FrameRead trace got) : written trace = [] := by
  cases h <;> rfl

def frame_of (ext : Ext) (v : Value) : Octets :=
  Bytes.le32 (ext.to_vec v).length ++ ext.to_vec v

end Frames

end AltKeeper.AltServer
