import AltKeeper.AltServer.Requests
import Mathlib.Algebra.Order.Field.Basic
import Mathlib.Algebra.Order.Field.Rat
import Mathlib.Tactic.NormNum

-- What a connection writes: one block of messages for each request, in their order.
namespace AltKeeper.AltServer

variable {ext : Ext} {ctx : Ctx} {req : Value} {events : Prog.Trace Resp}

def IsProgress (v : Value) : Prop :=
  (v.get "identifier").as_str = some "InstallationProgressResponse".toList

-- The block of a request, in what happened from it to the next one: messages of progress
-- below 1 for an installation that was begun, and then one final message.
structure Answered (ext : Ext) (req : Value) (segment : Value × Prog.Trace Resp) : Prop where
  same : segment.1 = req
  block : ∃ early final, written segment.2 = (early ++ [final]).map (frame_of ext) ∧
    (∀ m ∈ early, ∃ p : ℚ, p < 1 ∧ m = progress p) ∧
    (early ≠ [] → identifier req = "PrepareAppRequest".toList ∧
      ∃ ipa pcts, ⟨.begin_install ipa, pcts⟩ ∈ segment.2) ∧
    (IsProgress final → final = progress 1 ∧ ⟨.end_install, .ok ()⟩ ∈ segment.2)

-- What is sent before the final message.
structure Early (ext : Ext) (req : Value) (events : Prog.Trace Resp) (early : List Value) : Prop where
  sent : written events = early.map (frame_of ext)
  below : ∀ m ∈ early, ∃ p : ℚ, p < 1 ∧ m = progress p
  begun : early ≠ [] → identifier req = "PrepareAppRequest".toList ∧
    ∃ ipa pcts, ⟨.begin_install ipa, pcts⟩ ∈ events

-- A final message that tells of progress tells of an installation that is over.
def TrueEnd (events : Prog.Trace Resp) (final : Value) : Prop :=
  IsProgress final → final = progress 1 ∧ ⟨.end_install, .ok ()⟩ ∈ events

section Messages

theorem error_not_progress (code : Int64) : ¬ IsProgress (error code) := by
  show ¬ some "ErrorResponse".toList = some "InstallationProgressResponse".toList
  decide

theorem simple_not_progress {identifier : String}
    (h : identifier.toList ≠ "InstallationProgressResponse".toList) :
    ¬ IsProgress (simple identifier) := by
  show ¬ some identifier.toList = some "InstallationProgressResponse".toList
  simpa using h

theorem replied_not_progress {identifier : String} {result : Option (Except Int64 Unit)} {reply : Value}
    (h : identifier.toList ≠ "InstallationProgressResponse".toList)
    (hreply : some reply = result.map (replied identifier)) : ¬ IsProgress reply := by
  obtain ⟨ended, -, rfl⟩ := Option.map_eq_some_iff.mp hreply.symm
  cases ended with
  | ok _ => exact simple_not_progress h
  | error code => exact error_not_progress code

theorem progress_for_lt (pct : UInt64) : ∃ p : ℚ, p < 1 ∧ progress_for pct = progress p := by
  refine ⟨_, ?_, rfl⟩
  have hmin : min pct 99 = if pct ≤ 99 then pct else 99 := rfl
  have hle : (min pct 99).toNat ≤ 99 := by
    rw [hmin]
    split
    case isTrue h => exact UInt64.le_iff_toNat_le.mp h
    case isFalse => exact Nat.le_refl 99
  have hle' : ((min pct 99).toNat : ℚ) ≤ 99 := by exact_mod_cast hle
  rw [div_lt_one (by norm_num)]
  exact lt_of_le_of_lt hle' (by norm_num)

end Messages

section Replies

variable {reply : Value}

theorem anisette_reply_runs (h : anisette.Runs events reply) : ¬ IsProgress reply := by
  have hreply (v : Value) : ¬ IsProgress (anisette_reply v) := by
    show ¬ some "AnisetteDataResponse".toList = some "InstallationProgressResponse".toList
    decide
  have hfresh {trace : Prog.Trace Resp} {v : Value} (h : fresh_anisette.Runs trace v) :
      ¬ IsProgress v := by
    obtain ⟨r, rest, rfl, hrest⟩ := (Prog.runs_perform_bind _ _ _ _).mp h
    cases r with
    | error e =>
        obtain ⟨-, rfl⟩ := hrest
        exact error_not_progress _
    | ok v =>
        obtain ⟨_, _, rfl, -, rfl⟩ := (Prog.runs_perform_bind _ _ _ _).mp hrest
        exact hreply v
  obtain ⟨_, rest, rfl, hrest⟩ := (Prog.runs_perform_bind _ _ _ _).mp h
  obtain ⟨first, v, last, rfl, hfirst, hlast⟩ := (Prog.runs_bind _ _ _ _).mp hrest
  obtain ⟨_, _, rfl, -, rfl⟩ := (Prog.runs_perform_bind _ _ _ _).mp hlast
  obtain ⟨r, rest, rfl, hcached⟩ := (Prog.runs_perform_bind _ _ _ _).mp hfirst
  rcases r with _ | ⟨age, v⟩
  · exact hfresh hcached
  · dsimp only at hcached
    split at hcached
    · obtain ⟨-, rfl⟩ := hcached
      exact hreply v
    · exact hfresh hcached

theorem install_profiles_reply (h : (install_profiles ext ctx req).Runs events (some reply)) :
    ¬ IsProgress reply := by
  rcases install_profiles_replies h with ⟨-, ⟨⟩⟩ | ⟨blobs, result, -, -, hreply⟩
  · exact error_not_progress _
  · exact replied_not_progress (by decide) hreply

theorem remove_profiles_reply (h : (remove_profiles ext ctx req).Runs events (some reply)) :
    ¬ IsProgress reply := by
  obtain ⟨result, -, hreply⟩ := remove_profiles_replies h
  exact replied_not_progress (by decide) hreply

theorem remove_app_reply (h : (remove_app ext ctx req).Runs events (some reply)) :
    ¬ IsProgress reply := by
  rcases remove_app_replies h with ⟨⟨⟩⟩ | ⟨bundle, result, -, -, hreply⟩
  · exact error_not_progress _
  · exact replied_not_progress (by decide) hreply

theorem Early.nil {trace : Prog.Trace Resp} (h : written trace = []) : Early ext req trace [] :=
  ⟨h, List.forall_mem_nil _, fun h => absurd rfl h⟩

-- What is sent while an app is received and installed.
theorem receive_early {result : Option (Except Int64 Unit)}
    (asked : identifier req = "PrepareAppRequest".toList)
    (h : (receive_and_install ext ctx req).Runs events result) :
    (∃ early, Early ext req events early) ∧
      (result = some (.ok ()) → ⟨.end_install, .ok ()⟩ ∈ events) := by
  cases receive_and_install_runs h with
  | refused size => exact ⟨⟨[], .nil rfl⟩, nofun⟩
  | cut positive bounded cut => exact ⟨⟨[], .nil rfl⟩, nofun⟩
  | no_frame positive bounded read none_got => exact ⟨⟨[], .nil read.written⟩, nofun⟩
  | unfit positive bounded read => exact ⟨⟨[], .nil read.written⟩, nofun⟩
  | @whole ipa next app frame _ positive bounded read run =>
      rcases with_phone_runs run with hrefused | ⟨before, installing, after, rfl, hrun, haround, -⟩
      · obtain ⟨code, rfl⟩ := hrefused.result
        have hoff : OffStream app := fun e he => Cmd.off_stream_of_around (hrefused.around e he)
        refine ⟨⟨[], .nil ?_⟩, nofun⟩
        simp [written, read.written, hoff.written]
      · have hbefore : OffStream before :=
          fun e he => Cmd.off_stream_of_around (haround e (List.mem_append_left _ he))
        have hafter : OffStream after :=
          fun e he => Cmd.off_stream_of_around (haround e (List.mem_append_right _ he))
        cases install_app_runs hrun with
        | @mk pcts reports r _ writes sent outcome =>
            refine ⟨⟨pcts.map progress_for, ?_, ?_, ?_⟩, fun hok => ?_⟩
            · simp [written, read.written, hbefore.written, hafter.written, sent]
            · intro m hm
              obtain ⟨pct, -, rfl⟩ := List.mem_map.mp hm
              exact progress_for_lt pct
            · exact fun _ => ⟨asked, ipa, pcts, by simp⟩
            · cases r with
              | error e =>
                  obtain ⟨code, hcode⟩ := outcome
                  exact nomatch hcode.symm.trans hok
              | ok _ => simp

-- No other final message tells of progress.
theorem dispatch_final (h : (dispatch ext ctx req).Runs events (some reply))
    (hid : identifier req ≠ "PrepareAppRequest".toList) : ¬ IsProgress reply := by
  generalize hreply : some reply = answer at h
  cases dispatch_runs h with
  | anisette asked run =>
      obtain rfl := Option.some.inj hreply
      exact anisette_reply_runs run
  | install asked run =>
      subst hreply
      exact install_profiles_reply run
  | remove asked run =>
      subst hreply
      exact remove_profiles_reply run
  | remove_app asked run =>
      subst hreply
      exact remove_app_reply run
  | prepare asked run => exact absurd asked hid
  | refused asked =>
      obtain rfl := Option.some.inj hreply
      exact error_not_progress _

theorem dispatch_early {reply : Option Value} (h : (dispatch ext ctx req).Runs events reply) :
    (∃ early, Early ext req events early) ∧ ∀ v, reply = some v → TrueEnd events v := by
  by_cases hid : identifier req = "PrepareAppRequest".toList
  · obtain ⟨result, run, rfl⟩ := dispatch_prepare h hid
    obtain ⟨hearly, hended⟩ := receive_early hid run
    refine ⟨hearly, fun v hv hprogress => ?_⟩
    rcases result with _ | code | _
    · cases hv
    · obtain rfl := Option.some.inj hv
      exact absurd hprogress (error_not_progress code)
    · obtain rfl := Option.some.inj hv
      exact ⟨rfl, hended rfl⟩
  · refine ⟨⟨[], .nil (dispatch_off_stream h hid).written⟩, fun v hv hprogress => ?_⟩
    subst hv
    exact absurd hprogress (dispatch_final h hid)

end Replies

section Blocks

variable {trace : Prog.Trace Resp} {ending : Ending} {fuel : Nat}

-- Calls on the stream tell nothing of the slices.
theorem slices_badly_append {tail : Prog.Trace Resp} (h : ∀ e ∈ tail, e.1.on_stream = true) :
    SlicesBadly req (events ++ tail) ↔ SlicesBadly req events := by
  have hconnect (addr : SocketAddr) : ⟨.connect addr, .linked⟩ ∉ tail := fun hmem => nomatch h _ hmem
  have hinstall (blob : Octets) (r : Except Str Unit) : ⟨.install blob, r⟩ ∉ tail :=
    fun hmem => nomatch h _ hmem
  have hcopy (r : Except Str (List Octets)) : ⟨.copy_all, r⟩ ∉ tail := fun hmem => nomatch h _ hmem
  simp [SlicesBadly, FoundPhone, FailedInstall, hconnect, hinstall, hcopy]

theorem FrameRead.reads {got : Except Str (Option Octets)} (h : FrameRead trace got) :
    ∀ e ∈ trace, e.1.reads = true := by
  cases h <;> simp [Cmd.reads]

theorem written_of_reads (h : ∀ e ∈ trace, e.1.reads = true) : written trace = [] := by
  apply Prog.Trace.skip_all written (·.reads = true) _ h
  intro c r rest hc
  cases c <;> first | rfl | cases hc

-- A request of the stream, read and logged, and what follows it.
theorem served {head rest : Prog.Trace Resp} {frame : Octets} {requests : List (ClientRequest ext)}
    (read : FrameRead head (.ok (some frame))) (json : ext.from_slice frame = some req)
    (hreads : Reads Delivered (requests.flatMap (·.bytes)) (head ++ ⟨.log_request req, ()⟩ :: rest)) :
    ∃ r later, requests = r :: later ∧ r.req = req ∧
      Reads Delivered (r.follows ++ later.flatMap (·.bytes)) rest := by
  obtain ⟨hhead, hrest⟩ := (reads_append _ _ _).mp hreads
  cases requests with
  | nil => exact absurd rfl (read.exhausted hhead frame)
  | cons r later =>
      rw [List.flatMap_cons, ClientRequest.bytes, List.append_assoc] at hhead hrest
      obtain ⟨hframe, htaken⟩ := read.delivered r.fits hhead
      obtain rfl : frame = r.body := by simpa using hframe
      rw [htaken, List.drop_left] at hrest
      exact ⟨r, later, rfl, Option.some.inj (r.json.symm.trans json), hrest⟩

-- A request that panics gets no final message: it is not the one that sends progress.
theorem panicked_unanswered (run : (dispatch ext ctx req).Runs events none)
    (hbad : SlicesBadly req events) : ¬ Answered ext req (req, events) := by
  rintro ⟨-, early, final, hwritten, -⟩
  obtain ⟨⟨early', hearly⟩, -⟩ := dispatch_early run
  have hnone : early' = [] := by
    by_contra hsome
    have hprepare := (hearly.begun hsome).1
    rcases hbad with ⟨hid, -⟩ | ⟨hid, -⟩
    all_goals exact (asked_once hprepare hid (by decide)).elim
  rw [hearly.sent, hnone] at hwritten
  simp at hwritten

-- A reply that is sent ends the block of its request.
theorem replied_answered {reply : Value} {tail : Prog.Trace Resp}
    (run : (dispatch ext ctx req).Runs events (some reply)) (htail : written tail = [frame_of ext reply]) :
    Answered ext req (req, events ++ tail) := by
  obtain ⟨⟨early, hearly⟩, hend⟩ := dispatch_early run
  refine ⟨rfl, early, reply, ?_, hearly.below, fun hsome => ?_, fun hprogress => ?_⟩
  · simp [written_append, hearly.sent, htail]
  · obtain ⟨hid, ipa, pcts, hmem⟩ := hearly.begun hsome
    exact ⟨hid, ipa, pcts, List.mem_append_left _ hmem⟩
  · obtain ⟨hone, hmem⟩ := hend reply rfl hprogress
    exact ⟨hone, List.mem_append_left _ hmem⟩

theorem session_blocks (hs : Session ext ctx fuel trace ending) (requests : List (ClientRequest ext))
    (hfuel : requests.length < fuel)
    (hreads : Reads Delivered (requests.flatMap (·.bytes)) trace)
    (hwrites : ∀ bytes e, ⟨.write_all bytes, .error e⟩ ∉ trace) :
    (∀ e ∈ preamble trace, e.1.reads = true) ∧
      written trace = (segments trace).flatMap (written ·.2) ∧
      (List.Forall₂ (Answered ext) (requests.map (·.req)) (segments trace) ↔
        ∀ segment ∈ segments trace, ¬ SlicesBadly segment.1 segment.2) := by
  induction hs generalizing requests with
  | unfinished => exact absurd hfuel (Nat.not_lt_zero _)
  | @ended fuel head got read none_got =>
      rw [preamble_of_unlogged read.unlogged, segments_of_unlogged read.unlogged]
      refine ⟨read.reads, read.written, ?_⟩
      cases requests with
      | nil => simp
      | cons r later =>
          rw [List.flatMap_cons, ClientRequest.bytes, List.append_assoc] at hreads
          exact absurd (read.delivered r.fits hreads).1 (none_got r.body)
  | @malformed fuel head frame r read json =>
      have hhead := ((reads_append _ _ _).mp hreads).1
      cases requests with
      | nil => exact absurd rfl (read.exhausted hhead frame)
      | cons r later =>
          rw [List.flatMap_cons, ClientRequest.bytes, List.append_assoc] at hhead
          obtain rfl : frame = r.body := by simpa using (read.delivered r.fits hhead).1
          exact nomatch json.symm.trans r.json
  | @panicked fuel head events frame req read json run =>
      obtain ⟨r, later, rfl, rfl, -⟩ := served read json hreads
      have hbad : SlicesBadly r.req events := (dispatch_panics run).mp rfl
      rw [preamble_of_logged read.unlogged, segments_last read.unlogged (dispatch_unlogged run)]
      refine ⟨read.reads, by simp [written, read.written], iff_of_false ?_ (by simpa using hbad)⟩
      intro hanswered
      exact panicked_unanswered run hbad (List.forall₂_cons.mp hanswered).1
  | @unheard fuel head events frame req reply e read json run =>
      exact absurd (by simp) (hwrites (frame_of ext reply) e)
  | @answered fuel head events rest frame req reply ending read json run more ih =>
      obtain ⟨r, later, rfl, rfl, hlater⟩ := served read json hreads
      obtain ⟨hevents, hrest⟩ := (reads_append _ _ _).mp hlater
      rw [dispatch_taken r run hevents, List.drop_left] at hrest
      obtain ⟨hreading, hwritten, hiff⟩ := ih later (Nat.lt_of_succ_lt_succ hfuel) hrest
        fun bytes e hmem => hwrites bytes e (by simp [hmem])
      have hnone := written_of_reads hreading
      -- what follows the dispatch up to the next request: the reply, and reads
      let tail : Prog.Trace Resp := ⟨.write_all (frame_of ext reply), .ok ()⟩ :: preamble rest
      have htail : ∀ e ∈ tail, e.1.on_stream = true := by
        intro e he
        rcases List.mem_cons.mp he with rfl | he
        · rfl
        · exact Cmd.on_stream_of_reads (hreading e he)
      have hgood : ¬ SlicesBadly r.req (events ++ tail) := by
        rw [slices_badly_append htail, ← dispatch_panics run]
        exact Option.some_ne_none reply
      have hanswered : Answered ext r.req (r.req, events ++ tail) :=
        replied_answered run (by simp [tail, written, hnone])
      rw [preamble_of_logged read.unlogged, segments_served read.unlogged (dispatch_unlogged run),
        preamble_write, segments_write]
      refine ⟨read.reads, ?_, ?_⟩
      · simp [written, read.written, hwritten, hnone]
      · rw [List.map_cons, List.forall₂_cons, List.forall_mem_cons, hiff]
        exact and_congr (iff_of_true hanswered hgood) Iff.rfl

-- In a run whose stream is made of well-formed requests and whose writes succeed, every request
-- gets its block, in order, and nothing else is written, exactly when no slice goes wrong.
theorem replies_iff (requests : List (ClientRequest ext))
    (run : (handle_connection ext ctx fuel).Runs trace ending) (hfuel : requests.length < fuel)
    (hreads : Reads Delivered (requests.flatMap (·.bytes)) trace)
    (hwrites : ∀ bytes e, ⟨.write_all bytes, .error e⟩ ∉ trace) :
    (List.Forall₂ (Answered ext) (requests.map (·.req)) (segments trace) ∧
        written trace = (segments trace).flatMap (written ·.2)) ↔
      ∀ segment ∈ segments trace, ¬ SlicesBadly segment.1 segment.2 := by
  obtain ⟨-, hwritten, hiff⟩ :=
    session_blocks (handle_connection_runs run) requests hfuel hreads hwrites
  rw [and_iff_left hwritten, hiff]

section Sample

-- A request that asks nothing more of the stream than its frame.
def plain (body : Octets) (json : (sample.from_slice body).isSome = true) (fits : Fits body)
    (h : identifier ((sample.from_slice body).get json) ≠ "PrepareAppRequest".toList) :
    ClientRequest sample where
  body
  req := (sample.from_slice body).get json
  follows := []
  json := (Option.some_get json).symm
  fits
  complete := .inr ⟨fun happ => h happ.1, rfl⟩

def install_bad_slice : ClientRequest sample :=
  plain (Utf8.encode install_profiles_text) (by decide +kernel) (by decide +kernel) (by decide +kernel)

def remove_app_com_a : ClientRequest sample :=
  plain (Utf8.encode remove_app_text) (by decide +kernel) (by decide +kernel) (by decide +kernel)

-- A connection that gets one request, with the phone within reach.
def one_request (r : ClientRequest sample) : Prog.Trace Resp × Ending :=
  (handle_connection sample ⟨none⟩ 2).exec (serving (reached [])) r.bytes

theorem one_request_writes (r : ClientRequest sample) (bytes : Octets) (e : Str) :
    ⟨.write_all bytes, .error e⟩ ∉ (one_request r).1 := by
  intro hmem
  obtain ⟨s, hs⟩ := Prog.exec_mem _ _ _ _ hmem
  cases hs

-- The blob is `</plist>x<?xml`: nothing is written in reply.
theorem install_unanswered : ∃ trace ending,
    (handle_connection sample ⟨none⟩ 2).Runs trace ending ∧
    Reads Delivered ([install_bad_slice].flatMap (·.bytes)) trace ∧
    (∀ bytes e, ⟨.write_all bytes, .error e⟩ ∉ trace) ∧
    ¬ List.Forall₂ (Answered sample) ([install_bad_slice].map (·.req)) (segments trace) := by
  refine ⟨(one_request install_bad_slice).1, (one_request install_bad_slice).2,
    Prog.runs_exec _ _ _, ?_, one_request_writes _, ?_⟩
  · rw [List.flatMap_singleton]
    exact serving_delivers _ _ _
  · have hsilent : (segments (one_request install_bad_slice).1).all
        (fun segment => (written segment.2).isEmpty) = true := by decide +kernel
    intro hanswered
    cases hsegments : segments (one_request install_bad_slice).1 with
    | nil =>
        rw [hsegments] at hanswered
        cases hanswered
    | cons segment segments =>
        rw [hsegments] at hanswered hsilent
        obtain ⟨⟨-, early, final, hwritten, -⟩, -⟩ := List.forall₂_cons.mp hanswered
        have hnone : written segment.2 = [] :=
          List.isEmpty_iff.mp (List.all_eq_true.mp hsilent segment List.mem_cons_self)
        rw [hnone] at hwritten
        simp at hwritten

theorem replies_iff_com_a : ∃ trace ending,
    (handle_connection sample ⟨none⟩ 2).Runs trace ending ∧
    List.Forall₂ (Answered sample) ([remove_app_com_a].map (·.req)) (segments trace) := by
  have hasked : (segments (one_request remove_app_com_a).1).all
      (fun segment => identifier segment.1 = "RemoveAppRequest".toList) = true := by decide +kernel
  have hrun : (handle_connection sample ⟨none⟩ 2).Runs (one_request remove_app_com_a).1
      (one_request remove_app_com_a).2 := Prog.runs_exec _ _ _
  refine ⟨_, _, hrun, ((replies_iff [remove_app_com_a] hrun (by decide) ?_
    (one_request_writes _)).mpr fun segment hmem => ?_).1⟩
  · rw [List.flatMap_singleton]
    exact serving_delivers _ _ _
  · have hid : identifier segment.1 = "RemoveAppRequest".toList :=
      of_decide_eq_true (List.all_eq_true.mp hasked segment hmem)
    simp [SlicesBadly, hid]

end Sample

end Blocks

end AltKeeper.AltServer
