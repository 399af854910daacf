import AltKeeper.AltServer.Requests

-- Where the requests of a connection begin in the stream of its client.
namespace AltKeeper.AltServer

variable {ext : Ext} {ctx : Ctx} {s : Octets} {p : Nat}

section Boundaries

def FrameAt (s : Octets) (p : Nat) (body : Octets) : Prop :=
  Fits body ∧ ∃ rest, s.drop p = framed body ++ rest

-- How many bytes of an app follow a frame.
def payload (ext : Ext) (body : Octets) : Nat :=
  match ext.from_slice body with
  | some req =>
      if identifier req = "PrepareAppRequest".toList then (content_size req).toNat else 0
  | none => 0

inductive Boundary (ext : Ext) (s : Octets) : Nat → Prop
  | start : Boundary ext s 0
  | next {p : Nat} {body : Octets} (boundary : Boundary ext s p) (frame : FrameAt s p body) :
      Boundary ext s (p + (framed body).length + payload ext body)

-- How much of the stream has been taken, and the bytes of the last read that was not given up.
structure Cursor where
  upto : Nat
  bytes : Octets

def Cursor.after (c : Cursor) : Prog.Event Resp → Cursor
  | ⟨.read_exact _ _, r⟩ => ⟨c.upto + taken_by r, match r with | .bytes b => b.1 | _ => c.bytes⟩
  | _ => c

-- The requests dispatched, each with the cursor by then.
def dispatched : Cursor → Prog.Trace Resp → List (Cursor × Value)
  | _, [] => []
  | c, ⟨.log_request req, _⟩ :: trace => (c, req) :: dispatched c trace
  | c, e :: trace => dispatched (c.after e) trace

-- The request is a frame that begins at a boundary and ends where it is dispatched.
def StartsAtBoundary (ext : Ext) (s : Octets) (d : Cursor × Value) : Prop :=
  ∃ p, Boundary ext s p ∧ FrameAt s p d.1.bytes ∧ ext.from_slice d.1.bytes = some d.2 ∧
    d.1.upto = p + (framed d.1.bytes).length

-- A read takes what comes next; one that is given up has taken only a part.
def Took (count : Nat) (s : Octets) : ReadOutcome count → Prop
  | .bytes bytes => bytes.1 = s.take count
  | .expired lost => lost < count ∧ lost ≤ s.length
  | .failed _ lost => lost < count ∧ lost ≤ s.length

def reads_of : Prog.Trace Resp → List ((count : Nat) × ReadOutcome count)
  | [] => []
  | ⟨.read_exact count _, r⟩ :: trace => ⟨count, r⟩ :: reads_of trace
  | _ :: trace => reads_of trace

-- Nothing of a frame had come when its header was given up.
def NothingYet (reads : List ((count : Nat) × ReadOutcome count)) : Prop :=
  ∃ (r : ReadOutcome 4) (more : _), reads = ⟨4, r⟩ :: more ∧ (∀ b, r ≠ .bytes b) ∧ taken_by r = 0

-- A whole frame came, and no app is to follow it.
def WholeFrame (ext : Ext) (reads : List ((count : Nat) × ReadOutcome count)) : Prop :=
  ∃ header count body more, reads = ⟨4, .bytes header⟩ :: ⟨count, .bytes body⟩ :: more ∧
    i32_from_le_bytes header.1 = count ∧ Fits body.1 ∧ payload ext body.1 = 0

-- The app of the request is not too large and came whole, and then a whole frame or nothing.
def Resyncs (ext : Ext) (req : Value) (events : Prog.Trace Resp) : Prop :=
  identifier req = "PrepareAppRequest".toList → content_size req ≠ 0 →
    content_size req ≤ MAX_IPA ∧ ∃ app more,
      reads_of events = ⟨(content_size req).toNat, .bytes app⟩ :: more ∧
        (NothingYet more ∨ WholeFrame ext more)

end Boundaries

section Chain

theorem Took.taken_lt {count : Nat} {r : ReadOutcome count} (h : Took count s r)
    (cut : ∀ b, r ≠ .bytes b) : taken_by r < count := by
  cases r with
  | bytes b => exact absurd rfl (cut b)
  | expired lost => exact h.1
  | failed kind lost => exact h.1

theorem FrameAt.unique {body body' : Octets} (h : FrameAt s p body) (h' : FrameAt s p body') :
    body = body' := by
  obtain ⟨hfits, rest, heq⟩ := h
  obtain ⟨hfits', rest', heq'⟩ := h'
  have hsame := heq.symm.trans heq'
  rw [framed, framed, List.append_assoc, List.append_assoc] at hsame
  obtain ⟨hheader, hbodies⟩ := List.append_inj hsame rfl
  have hlength := congrArg i32_from_le_bytes hheader
  rw [i32_of_le32 hfits.2, i32_of_le32 hfits'.2] at hlength
  exact (List.append_inj hbodies (Int.ofNat.inj hlength)).1

-- Between two boundaries there is a whole frame with its app.
theorem Boundary.next_le {p q : Nat} (hp : Boundary ext s p) (hq : Boundary ext s q) (hlt : p < q) :
    ∃ body, FrameAt s p body ∧ p + (framed body).length + payload ext body ≤ q := by
  induction hn : p + q using Nat.strong_induction_on generalizing p q with
  | _ n ih =>
      cases hq with
      | start => exact absurd hlt (Nat.not_lt_zero p)
      | @next q body boundary frame =>
          have hframed : 4 ≤ (framed body).length := by simp [framed]
          rcases Nat.lt_trichotomy p q with hbefore | rfl | hafter
          · obtain ⟨body', hframe, hle⟩ := ih (p + q) (by omega) hp boundary hbefore rfl
            exact ⟨body', hframe, by omega⟩
          · exact ⟨body, frame, Nat.le_refl _⟩
          · obtain ⟨body', hframe, hle⟩ := ih (q + p) (by omega) boundary hp hafter rfl
            rw [← frame.unique hframe] at hle
            omega

end Chain

section Positions

theorem dispatched_append (c : Cursor) (first rest : Prog.Trace Resp) :
    dispatched c (first ++ rest) = dispatched c first ++ dispatched (first.foldl .after c) rest := by
  induction first generalizing c with
  | nil => rfl
  | cons e first ih =>
      obtain ⟨cmd, r⟩ := e
      cases cmd
      all_goals simp only [List.cons_append, dispatched, List.foldl_cons, ih]
      all_goals rfl

theorem dispatched_of_unlogged {trace : Prog.Trace Resp} (h : Unlogged trace) (c : Cursor) :
    dispatched c trace = [] := by
  induction trace generalizing c with
  | nil => rfl
  | cons e trace ih =>
      have he := h e List.mem_cons_self
      have htrace := fun c => ih (fun e' he' => h e' (List.mem_cons_of_mem _ he')) c
      obtain ⟨cmd, r⟩ := e
      cases cmd <;> first | exact htrace _ | cases he

theorem dispatched_of_no_segment {trace : Prog.Trace Resp} (h : segments trace = []) (c : Cursor) :
    dispatched c trace = [] := by
  induction trace generalizing c with
  | nil => rfl
  | cons e trace ih =>
      obtain ⟨cmd, r⟩ := e
      cases cmd <;> first | exact ih h _ | cases h

theorem upto_foldl (trace : Prog.Trace Resp) (c : Cursor) :
    (trace.foldl .after c).upto = c.upto + taken trace := by
  induction trace generalizing c with
  | nil => rfl
  | cons e trace ih =>
      rw [List.foldl_cons, ih]
      obtain ⟨cmd, r⟩ := e
      cases cmd <;> simp only [Cursor.after, taken, Nat.add_assoc]

theorem FrameRead.cursor {trace : Prog.Trace Resp} {frame : Octets}
    (h : FrameRead trace (.ok (some frame))) (c : Cursor) :
    trace.foldl .after c = ⟨c.upto + taken trace, frame⟩ := by
  cases h with
  | no_header cut none_got => exact absurd rfl (none_got frame)
  | frame length positive bounded => simp [Cursor.after, taken, taken_by, Nat.add_assoc]

@[simp] theorem reads_of_append (first rest : Prog.Trace Resp) :
    reads_of (first ++ rest) = reads_of first ++ reads_of rest := by
  induction first with
  | nil => rfl
  | cons e first ih =>
      obtain ⟨c, r⟩ := e
      cases c <;> simp only [List.cons_append, reads_of, ih]

theorem header_eq {header : Octets} {count : Nat} (hlength : header.length = 4)
    (h : i32_from_le_bytes header = count) : header = Bytes.le32 count := by
  rcases header with _ | ⟨a, _ | ⟨b, _ | ⟨c, _ | ⟨d, _ | ⟨e, rest⟩⟩⟩⟩⟩
  all_goals try cases hlength
  simp only [i32_from_le_bytes, List.getD_cons_zero, List.getD_cons_succ] at h
  have hlt := Bytes.ofLe32_lt a b c d
  split at h
  · rw [← Int.ofNat.inj h, Bytes.le32_ofLe32]
  · omega

-- A frame that is read stands where the reading began.
theorem FrameRead.frame_at {trace : Prog.Trace Resp} {frame : Octets}
    (h : FrameRead trace (.ok (some frame))) (hreads : Reads Took (s.drop p) trace) :
    FrameAt s p frame ∧ taken trace = (framed frame).length := by
  cases h with
  | no_header cut none_got => exact absurd rfl (none_got frame)
  | @frame header count body length positive bounded =>
      have hheader : header.1 = (s.drop p).take 4 := hreads.1
      have hbody : body.1 = ((s.drop p).drop 4).take count := hreads.2.1
      have hcount : body.1.length = count := body.2
      have hbytes : framed body.1 = (s.drop p).take (4 + count) := by
        rw [framed, hcount, ← header_eq header.2 length, hheader, hbody, List.take_add]
      refine ⟨⟨⟨by omega, by omega⟩, (s.drop p).drop (4 + count), ?_⟩, ?_⟩
      · rw [hbytes, List.take_append_drop]
      · simp [taken, taken_by, framed, hcount]

end Positions

section Resync

variable {req : Value} {body : Octets} {events : Prog.Trace Resp} {reply : Option Value}

theorem payload_of_other (hjson : ext.from_slice body = some req)
    (hid : identifier req ≠ "PrepareAppRequest".toList) : payload ext body = 0 := by
  simp only [payload, hjson]
  rw [if_neg hid]

theorem payload_of_prepare (hjson : ext.from_slice body = some req)
    (hid : identifier req = "PrepareAppRequest".toList) :
    payload ext body = (content_size req).toNat := by
  simp only [payload, hjson]
  rw [if_pos hid]

-- After an app the frame that follows it, or nothing, brings to a boundary again.
theorem FrameRead.resync {next : Prog.Trace Resp} {got : Except Str (Option Octets)}
    {later : List ((count : Nat) × ReadOutcome count)} (h : FrameRead next got)
    (hp : Boundary ext s p) (hreads : Reads Took (s.drop p) next)
    (hcame : NothingYet (reads_of next ++ later) ∨ WholeFrame ext (reads_of next ++ later)) :
    Boundary ext s (p + taken next) := by
  cases h with
  | @no_header r got cut none_got =>
      rcases hcame with ⟨r', more, heq, -, hzero⟩ | ⟨header, count, body, more, heq, -⟩
      · cases heq
        simpa [taken, hzero] using hp
      · cases heq
        exact absurd rfl (cut header)
  | bad_length bad =>
      rcases hcame with ⟨r', more, heq, hcut, -⟩ | ⟨header, count, body, more, heq, hlength, hfits, -⟩
      · cases heq
        exact absurd rfl (hcut _)
      · cases heq
        have hpos := hfits.1
        have hle := hfits.2
        rw [body.2] at hpos hle
        omega
  | no_body length positive bounded cut =>
      rcases hcame with ⟨r', more, heq, hcut, -⟩ | ⟨header, count, body, more, heq, -⟩
      · cases heq
        exact absurd rfl (hcut _)
      · cases heq
        exact absurd rfl (cut body)
  | @frame header count body length positive bounded =>
      obtain ⟨hframe, htaken⟩ := (FrameRead.frame length positive bounded).frame_at hreads
      rcases hcame with ⟨r', more, heq, hcut, -⟩ | ⟨header, count, body, more, heq, -, -, hpayload⟩
      · cases heq
        exact absurd rfl (hcut _)
      · cases heq
        have hnext := Boundary.next hp hframe
        rwa [hpayload, Nat.add_zero, ← htaken] at hnext

-- Only such a frame, or nothing, leaves the stream at a boundary again.
theorem FrameRead.resynced {next : Prog.Trace Resp} {got : Except Str (Option Octets)}
    (h : FrameRead next got) (hp : Boundary ext s p) (hreads : Reads Took (s.drop p) next)
    (hq : Boundary ext s (p + taken next)) (later : List ((count : Nat) × ReadOutcome count)) :
    NothingYet (reads_of next ++ later) ∨ WholeFrame ext (reads_of next ++ later) := by
  have hnext (hlt : 0 < taken next) :
      ∃ body, FrameAt s p body ∧ (framed body).length + payload ext body ≤ taken next := by
    obtain ⟨body, hframe, hle⟩ := hp.next_le hq (by omega)
    exact ⟨body, hframe, by omega⟩
  have hlength (body : Octets) : (framed body).length = 4 + body.length := by simp [framed]
  cases h with
  | @no_header r got cut none_got =>
      left
      refine ⟨r, later, rfl, cut, ?_⟩
      by_contra hlost
      obtain ⟨body, hframe, hle⟩ := hnext (by simp [taken]; omega)
      have hshort := Took.taken_lt hreads.1 cut
      simp only [taken, Nat.add_zero, hlength] at hle
      omega
  | bad_length bad =>
      obtain ⟨body, hframe, hle⟩ := hnext (by simp [taken, taken_by])
      have hpos := hframe.1.1
      simp only [taken, taken_by, Nat.add_zero, hlength] at hle
      omega
  | @no_body header count r e length positive bounded cut =>
      obtain ⟨body, hframe, hle⟩ := hnext (by simp only [taken, taken_by]; omega)
      have hshort := Took.taken_lt hreads.2.1 cut
      -- the header read is the one that stands there
      have hheader : header.1 = (s.drop p).take 4 := hreads.1
      obtain ⟨rest, hrest⟩ := hframe.2
      have hfour : (framed body ++ rest).take 4 = Bytes.le32 body.length := rfl
      rw [hrest, hfour] at hheader
      rw [hheader, i32_of_le32 hframe.1.2] at length
      have hcount := Int.ofNat.inj length
      have hfour : taken_by (.bytes header) = 4 := rfl
      simp only [taken, hfour, Nat.add_zero, hlength] at hle
      omega
  | @frame header count body length positive bounded =>
      right
      obtain ⟨hframe, htaken⟩ := (FrameRead.frame length positive bounded).frame_at hreads
      obtain ⟨body', hframe', hle⟩ := hnext (by rw [htaken, hlength]; omega)
      rw [← hframe.unique hframe', htaken] at hle
      exact ⟨header, count, body, later, rfl, length, hframe.1, by omega⟩

-- What resynchronises is what is read after the app.
theorem Resyncs.came {app : { bytes : Octets // bytes.length = (content_size req).toNat }}
    {next later : Prog.Trace Resp}
    (h : Resyncs ext req
      (⟨.read_exact (content_size req).toNat IPA_TIMEOUT, .bytes app⟩ :: next ++ later))
    (asked : identifier req = "PrepareAppRequest".toList) (positive : content_size req ≠ 0) :
    NothingYet (reads_of next ++ reads_of later) ∨ WholeFrame ext (reads_of next ++ reads_of later) := by
  obtain ⟨-, app', more, heq, hcame⟩ := h asked positive
  rw [List.cons_append, reads_of, reads_of_append] at heq
  obtain ⟨-, rfl⟩ := List.cons.inj heq
  exact hcame

theorem Resyncs.of_came {app : { bytes : Octets // bytes.length = (content_size req).toNat }}
    {next later : Prog.Trace Resp} (bounded : content_size req ≤ MAX_IPA)
    (h : NothingYet (reads_of next ++ reads_of later) ∨ WholeFrame ext (reads_of next ++ reads_of later)) :
    Resyncs ext req
      (⟨.read_exact (content_size req).toNat IPA_TIMEOUT, .bytes app⟩ :: next ++ later) := by
  intro asked positive
  refine ⟨bounded, app, _, ?_, h⟩
  rw [List.cons_append, reads_of, reads_of_append]

-- A request that begins at a boundary and resynchronises leaves the stream at one.
theorem dispatch_resync {p : Nat} {later : Prog.Trace Resp} (hp : Boundary ext s p)
    (hframe : FrameAt s p body) (hjson : ext.from_slice body = some req)
    (h : (dispatch ext ctx req).Runs events reply)
    (hreads : Reads Took (s.drop (p + (framed body).length)) events)
    (hresync : Resyncs ext req (events ++ later)) :
    Boundary ext s (p + (framed body).length + taken events) := by
  have hnext : Boundary ext s (p + (framed body).length + payload ext body) := .next hp hframe
  by_cases asked : identifier req = "PrepareAppRequest".toList
  case neg =>
    rwa [taken_of_no_reads (dispatch_off_stream h asked).no_reads, ← payload_of_other hjson asked]
  case pos =>
    obtain ⟨result, run, -⟩ := dispatch_prepare h asked
    rw [payload_of_prepare hjson asked] at hnext
    have hdrop : s.drop (p + (framed body).length + (content_size req).toNat) =
        (s.drop (p + (framed body).length)).drop (content_size req).toNat := by
      rw [List.drop_drop]
    cases receive_and_install_runs run with
    | refused size =>
        by_cases hzero : content_size req = 0
        · simpa [hzero, taken] using hnext
        · have hlarge := size.resolve_left hzero
          exact absurd (hresync asked hzero).1 (UInt64.not_le.mpr hlarge)
    | cut positive bounded cut =>
        obtain ⟨-, app, more, heq, -⟩ := hresync asked positive
        cases heq
        exact absurd rfl (cut app)
    | no_frame positive bounded read none_got =>
        rw [taken, taken_by, ← Nat.add_assoc]
        apply read.resync hnext
        · rw [hdrop]
          exact hreads.2
        · exact hresync.came asked positive
    | unfit positive bounded read =>
        rw [taken, taken_by, ← Nat.add_assoc]
        apply read.resync hnext
        · rw [hdrop]
          exact hreads.2
        · exact hresync.came asked positive
    | @whole ipa next events frame _ positive bounded read run =>
        rw [List.append_assoc] at hresync
        rw [List.cons_append, taken, taken_by, taken_append, app_events_no_reads run,
          Nat.add_zero, ← Nat.add_assoc]
        apply read.resync hnext
        · rw [hdrop]
          exact ((reads_append _ _ _).mp hreads.2).1
        · exact hresync.came asked positive

-- And it leaves the stream at a boundary only if it resynchronises.
theorem dispatch_resynced {p : Nat} (hp : Boundary ext s p) (hframe : FrameAt s p body)
    (hjson : ext.from_slice body = some req) (h : (dispatch ext ctx req).Runs events reply)
    (hreads : Reads Took (s.drop (p + (framed body).length)) events)
    (hq : Boundary ext s (p + (framed body).length + taken events)) (later : Prog.Trace Resp) :
    Resyncs ext req (events ++ later) := by
  intro asked positive
  obtain ⟨result, run, -⟩ := dispatch_prepare h asked
  have hsize : 0 < (content_size req).toNat :=
    Nat.pos_of_ne_zero fun hzero => positive (UInt64.toNat_inj.mp hzero)
  have hnext : Boundary ext s (p + (framed body).length + payload ext body) := .next hp hframe
  -- the next boundary is not before the end of the app
  have hall : (content_size req).toNat ≤ taken events := by
    obtain ⟨body', hframe', hle⟩ := hp.next_le hq (by simp [framed]; omega)
    rw [← hframe.unique hframe', payload_of_prepare hjson asked] at hle
    omega
  rw [payload_of_prepare hjson asked] at hnext
  have hdrop : s.drop (p + (framed body).length + (content_size req).toNat) =
      (s.drop (p + (framed body).length)).drop (content_size req).toNat := by
    rw [List.drop_drop]
  cases receive_and_install_runs run with
  | refused size =>
      rw [taken] at hall
      omega
  | @cut code r _ bounded cut =>
      have hshort := Took.taken_lt hreads.1 cut
      rw [taken, taken, Nat.add_zero] at hall
      omega
  | @no_frame code ipa next got _ bounded read none_got =>
      rw [taken, taken_by, ← Nat.add_assoc] at hq
      have hcame := read.resynced hnext (by rw [hdrop]; exact hreads.2) hq (reads_of later)
      exact Resyncs.of_came bounded hcame asked positive
  | @unfit code ipa next frame _ bounded read =>
      rw [taken, taken_by, ← Nat.add_assoc] at hq
      have hcame := read.resynced hnext (by rw [hdrop]; exact hreads.2) hq (reads_of later)
      exact Resyncs.of_came bounded hcame asked positive
  | @whole ipa next events frame _ _ bounded read run =>
      rw [List.cons_append, taken, taken_by, taken_append, app_events_no_reads run,
        Nat.add_zero, ← Nat.add_assoc] at hq
      have hcame := read.resynced hnext
        (by rw [hdrop]; exact ((reads_append _ _ _).mp hreads.2).1) hq (reads_of (events ++ later))
      rw [List.append_assoc]
      exact Resyncs.of_came bounded hcame asked positive

end Resync

section Session

variable {fuel : Nat} {trace : Prog.Trace Resp} {ending : Ending}

-- Every request that is followed by another one resynchronises.
def AllResync (ext : Ext) (trace : Prog.Trace Resp) : Prop :=
  ∀ segment ∈ (segments trace).dropLast, Resyncs ext segment.1 segment.2

-- Where the first request of a run was dispatched, and the run after it.
theorem dispatched_served {head events rest : Prog.Trace Resp} {frame : Octets} {req : Value}
    (read : FrameRead head (.ok (some frame))) (hevents : Unlogged events) (c : Cursor) :
    dispatched c (head ++ ⟨.log_request req, ()⟩ :: (events ++ rest)) =
      (⟨c.upto + taken head, frame⟩, req) ::
        dispatched (events.foldl .after ⟨c.upto + taken head, frame⟩) rest := by
  rw [dispatched_append, dispatched_of_unlogged read.unlogged, List.nil_append, dispatched,
    read.cursor, dispatched_append, dispatched_of_unlogged hevents, List.nil_append]

-- A run whose first request begins at a boundary begins there itself.
theorem Session.starts_back (h : Session ext ctx fuel trace ending) {c : Cursor}
    (hsome : segments trace ≠ []) (hreads : Reads Took (s.drop c.upto) trace)
    (hstart : ∀ d ∈ dispatched c trace, StartsAtBoundary ext s d) : Boundary ext s c.upto := by
  have hfirst {head rest : Prog.Trace Resp} {frame : Octets} {req : Value}
      (read : FrameRead head (.ok (some frame))) (hreads : Reads Took (s.drop c.upto) (head ++ rest))
      (hstart : StartsAtBoundary ext s (⟨c.upto + taken head, frame⟩, req)) :
      Boundary ext s c.upto := by
    obtain ⟨hframe, htaken⟩ := read.frame_at ((reads_append _ _ _).mp hreads).1
    obtain ⟨p, hp, hframe', -, hends⟩ := hstart
    rw [htaken] at hends
    obtain rfl : c.upto = p := by simpa using hends
    exact hp
  cases h with
  | unfinished => exact absurd rfl hsome
  | ended read none_got => exact absurd (segments_of_unlogged read.unlogged) hsome
  | malformed read json =>
      rw [segments_append read.unlogged] at hsome
      exact absurd rfl hsome
  | panicked read json run =>
      rw [dispatched_append, dispatched_of_unlogged read.unlogged, List.nil_append, dispatched,
        read.cursor] at hstart
      exact hfirst read hreads (hstart _ List.mem_cons_self)
  | unheard read json run =>
      rw [dispatched_served read (dispatch_unlogged run)] at hstart
      exact hfirst read hreads (hstart _ List.mem_cons_self)
  | answered read json run more =>
      rw [dispatched_served read (dispatch_unlogged run)] at hstart
      exact hfirst read hreads (hstart _ List.mem_cons_self)

-- Each request begins at a boundary while those before it resynchronise, and only then.
theorem session_framed (hs : Session ext ctx fuel trace ending) {c : Cursor}
    (hp : Boundary ext s c.upto) (hreads : Reads Took (s.drop c.upto) trace) :
    (∀ d ∈ dispatched c trace, StartsAtBoundary ext s d) ↔ AllResync ext trace := by
  -- the first request starts where its frame was read
  have hfirst {head rest : Prog.Trace Resp} {frame : Octets} {req : Value} {c : Cursor}
      (hp : Boundary ext s c.upto) (read : FrameRead head (.ok (some frame)))
      (json : ext.from_slice frame = some req)
      (hreads : Reads Took (s.drop c.upto) (head ++ rest)) :
      StartsAtBoundary ext s (⟨c.upto + taken head, frame⟩, req) := by
    obtain ⟨hframe, htaken⟩ := read.frame_at ((reads_append _ _ _).mp hreads).1
    exact ⟨c.upto, hp, hframe, json, congrArg (c.upto + ·) htaken⟩
  induction hs generalizing c with
  | unfinished => exact iff_of_true (List.forall_mem_nil _) (List.forall_mem_nil _)
  | ended read none_got =>
      rw [dispatched_of_unlogged read.unlogged, AllResync, segments_of_unlogged read.unlogged]
      exact iff_of_true (List.forall_mem_nil _) (List.forall_mem_nil _)
  | malformed read json =>
      rw [dispatched_append, dispatched_of_unlogged read.unlogged, AllResync,
        segments_append read.unlogged]
      exact iff_of_true (List.forall_mem_nil _) (List.forall_mem_nil _)
  | @panicked fuel head events frame req read json run =>
      have hstarts := hfirst hp read json hreads
      rw [← List.append_nil events, dispatched_served read (dispatch_unlogged run), AllResync,
        segments_served read.unlogged (dispatch_unlogged run)]
      exact iff_of_true (List.forall_mem_cons.mpr ⟨hstarts, List.forall_mem_nil _⟩)
        (List.forall_mem_nil _)
  | @unheard fuel head events frame req reply e read json run =>
      have hstarts := hfirst hp read json hreads
      rw [dispatched_served read (dispatch_unlogged run), AllResync,
        segments_served read.unlogged (dispatch_unlogged run)]
      exact iff_of_true (List.forall_mem_cons.mpr ⟨hstarts, List.forall_mem_nil _⟩)
        (List.forall_mem_nil _)
  | @answered fuel head events rest frame req reply ending read json run more ih =>
      have hstarts := hfirst hp read json hreads
      have hunlogged := dispatch_unlogged run
      let c' : Cursor := events.foldl .after ⟨c.upto + taken head, frame⟩
      have hdispatched : dispatched c' (⟨.write_all (frame_of ext reply), .ok ()⟩ :: rest) =
          dispatched c' rest := rfl
      rw [dispatched_served read hunlogged, AllResync, segments_served read.unlogged hunlogged,
        preamble_write, segments_write, List.forall_mem_cons, and_iff_right hstarts, hdispatched]
      by_cases hlast : segments rest = []
      · rw [dispatched_of_no_segment hlast, hlast]
        exact iff_of_true (List.forall_mem_nil _) (List.forall_mem_nil _)
      · rw [List.dropLast_cons_of_ne_nil hlast, List.forall_mem_cons]
        obtain ⟨hhead, htail⟩ := (reads_append _ _ _).mp hreads
        obtain ⟨hframe, htaken⟩ := read.frame_at hhead
        obtain ⟨hevents, hrest⟩ := (reads_append _ _ _).mp htail
        have hupto : c'.upto = c.upto + (framed frame).length + taken events := by
          rw [upto_foldl, htaken]
        rw [List.drop_drop, htaken] at hevents
        rw [List.drop_drop, List.drop_drop, htaken, ← Nat.add_assoc, ← hupto] at hrest
        constructor
        · intro hstart
          have hback := more.starts_back hlast hrest hstart
          have hback' := hback
          rw [hupto] at hback'
          exact ⟨dispatch_resynced hp hframe json run hevents hback' _,
            (ih hback hrest).mp hstart⟩
        · intro hresync
          have hback := dispatch_resync hp hframe json run hevents hresync.1
          rw [← hupto] at hback
          exact (ih hback hrest).mpr hresync.2

-- A request dispatched begins at a boundary of the client's stream, in every run of a
-- connection, exactly when each one before it resynchronised.
theorem dispatched_at_boundary_iff (run : (handle_connection ext ctx fuel).Runs trace ending)
    (hreads : Reads Took s trace) :
    (∀ d ∈ dispatched ⟨0, []⟩ trace, StartsAtBoundary ext s d) ↔ AllResync ext trace :=
  session_framed (handle_connection_runs run) .start hreads

section Sample

theorem serving_took {α : Type} (outside : (c : Cmd) → Resp c) (p : Act α) (s : Octets) :
    Reads Took s (p.exec (serving outside) s).1 :=
  serving_reads (fun _ _ _ => rfl) (fun _ _ h => ⟨h, Nat.le_refl _⟩) outside p s

-- A connection whose client sends the two texts, with the phone within reach.
def two_frames (first second : Str) : Octets :=
  framed (Utf8.encode first) ++ framed (Utf8.encode second)

def two_requests (first second : Str) : Prog.Trace Resp × Ending :=
  (handle_connection sample ⟨none⟩ 3).exec (serving (reached [])) (two_frames first second)

-- The app is larger than allowed: what stands where its bytes would be is dispatched.
theorem dispatched_in_payload : ∃ trace ending,
    (handle_connection sample ⟨none⟩ 3).Runs trace ending ∧
    Reads Took (two_frames prepare_app_text remove_app_text) trace ∧
    ¬ ∀ d ∈ dispatched ⟨0, []⟩ trace,
      StartsAtBoundary sample (two_frames prepare_app_text remove_app_text) d := by
  refine ⟨(two_requests prepare_app_text remove_app_text).1, _, Prog.runs_exec _ _ _,
    serving_took _ _ _, ?_⟩
  have hdispatched : (dispatched ⟨0, []⟩ (two_requests prepare_app_text remove_app_text).1).any
      (fun d => d.1.bytes = Utf8.encode remove_app_text ∧
        d.1.upto = (two_frames prepare_app_text remove_app_text).length) = true := by
    decide +kernel
  have hpayload : payload sample (Utf8.encode prepare_app_text) = 1073741825 := by decide +kernel
  have hlength : (two_frames prepare_app_text remove_app_text).length < 1073741825 := by
    decide +kernel
  have hfits : Fits (Utf8.encode prepare_app_text) := by decide +kernel
  intro hall
  obtain ⟨d, hmem, hd⟩ := List.any_eq_true.mp hdispatched
  obtain ⟨hbytes, hupto⟩ := of_decide_eq_true hd
  obtain ⟨p, hp, -, -, hends⟩ := hall d hmem
  rw [hbytes, hupto, two_frames, List.length_append] at hends
  have hpos : 0 < p := by
    have hfirst : 4 ≤ (framed (Utf8.encode prepare_app_text)).length := by simp [framed]
    omega
  obtain ⟨body, hframe, hle⟩ := Boundary.start.next_le hp hpos
  obtain rfl := hframe.unique ⟨hfits, framed (Utf8.encode remove_app_text), rfl⟩
  rw [hpayload] at hle
  rw [two_frames, List.length_append] at hlength
  omega

-- A request for a small app, of three bytes.
def small_app_text : Str :=
  sample_text ["\x7b\"identifier\":", "\"PrepareAppRequest\",", "\"contentSize\":", "3\x7d"]

def small_app : Ext := { sample with
  from_slice := fun bytes =>
    if bytes = Utf8.encode small_app_text then
      some (sample_request "PrepareAppRequest" [("contentSize", .number (.posInt 3))])
    else sample.from_slice bytes }

-- The app follows its request, a request that does not begin its installation follows the app, and
-- one more follows that.
def app_stream : Octets :=
  framed (Utf8.encode small_app_text) ++ [0x50, 0x4B, 0x03] ++
    framed (Utf8.encode remove_app_text) ++ framed (Utf8.encode remove_app_text)

def app_run : Prog.Trace Resp × Ending :=
  (handle_connection small_app ⟨none⟩ 3).exec (serving (reached [])) app_stream

-- The app came whole, and a whole frame after it.
def came_whole (ext : Ext) (req : Value) : List ((count : Nat) × ReadOutcome count) → Bool
  | ⟨size, .bytes _⟩ :: ⟨4, .bytes header⟩ :: ⟨count, .bytes body⟩ :: _ =>
      (content_size req).toNat = size && decide (content_size req ≤ MAX_IPA) &&
        (i32_from_le_bytes header.1 = count && decide (Fits body.1) && payload ext body.1 = 0)
  | _ => false

theorem resyncs_of_whole {ext : Ext} {req : Value} {events : Prog.Trace Resp}
    (h : came_whole ext req (reads_of events) = true) : Resyncs ext req events := by
  intro _ _
  generalize reads_of events = reads at h ⊢
  unfold came_whole at h
  split at h
  · simp only [Bool.and_eq_true, decide_eq_true_eq] at h
    obtain ⟨⟨rfl, hsize⟩, ⟨hcount, hfits⟩, hnone⟩ := h
    exact ⟨hsize, _, _, rfl, .inr ⟨_, _, _, _, rfl, hcount, hfits, hnone⟩⟩
  · cases h

theorem dispatched_at_boundary_iff_app : ∃ trace ending,
    (handle_connection small_app ⟨none⟩ 3).Runs trace ending ∧ Reads Took app_stream trace ∧
    (dispatched ⟨0, []⟩ trace).map (fun d => (identifier d.2, payload small_app d.1.bytes)) =
      [("PrepareAppRequest".toList, 3), ("RemoveAppRequest".toList, 0)] ∧
    ∀ d ∈ dispatched ⟨0, []⟩ trace, StartsAtBoundary small_app app_stream d := by
  have hrun : (handle_connection small_app ⟨none⟩ 3).Runs app_run.1 app_run.2 :=
    Prog.runs_exec _ _ _
  have htook : Reads Took app_stream app_run.1 := serving_took _ _ _
  have hdispatched : (dispatched ⟨0, []⟩ app_run.1).map
      (fun d => (identifier d.2, payload small_app d.1.bytes)) =
      [("PrepareAppRequest".toList, 3), ("RemoveAppRequest".toList, 0)] := by decide +kernel
  have hwhole : (segments app_run.1).dropLast.all
      (fun segment => came_whole small_app segment.1 (reads_of segment.2)) = true := by
    decide +kernel
  refine ⟨_, _, hrun, htook, hdispatched, (dispatched_at_boundary_iff hrun htook).mpr ?_⟩
  exact fun segment hmem => resyncs_of_whole (List.all_eq_true.mp hwhole segment hmem)

end Sample

end Session

end AltKeeper.AltServer
