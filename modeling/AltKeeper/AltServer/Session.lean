import AltKeeper.AltServer.Stream

-- The run of a connection, request after request.
namespace AltKeeper.AltServer

variable {ext : Ext} {ctx : Ctx} {trace : Prog.Trace Resp}

section Installation

variable {result : Option (Except Int64 Unit)} {ipa : Octets}

-- What the callback sends for a percentage.
def progress_for (pct : UInt64) : Value := progress ((min pct 99).toNat / 100)

theorem report_progress_runs {pcts : List UInt64} (h : (report_progress ext pcts).Runs trace ()) :
    (∀ e ∈ trace, ∃ bytes r, e = ⟨.write_all bytes, r⟩) ∧
      written trace = pcts.map fun pct => frame_of ext (progress_for pct) := by
  induction pcts generalizing trace with
  | nil =>
      obtain ⟨rfl, -⟩ := h
      simp [written]
  | cons pct pcts ih =>
      obtain ⟨r, rest, rfl, hrest⟩ := (Prog.runs_perform_bind _ _ _ _).mp h
      obtain ⟨hwrites, hwritten⟩ := ih hrest
      refine ⟨?_, ?_⟩
      · intro e he
        rcases List.mem_cons.mp he with rfl | he
        · exact ⟨_, r, rfl⟩
        · exact hwrites e he
      · simp only [written, hwritten, List.map_cons]
        rfl

-- An installation: the percentages it reports are sent, and then it ends.
inductive Installing (ext : Ext) (ipa : Octets) : Prog.Trace Resp → Option (Except Int64 Unit) → Prop
  | mk {pcts : List UInt64} {reports : Prog.Trace Resp} {r : Except Str Unit}
      {result : Option (Except Int64 Unit)}
      (writes : ∀ e ∈ reports, ∃ bytes r, e = ⟨.write_all bytes, r⟩)
      (sent : written reports = pcts.map fun pct => frame_of ext (progress_for pct))
      (outcome : if succeeded r then result = some (.ok ()) else ∃ code, result = some (.error code)) :
      Installing ext ipa (⟨.begin_install ipa, pcts⟩ :: reports ++ [⟨.end_install, r⟩]) result

theorem install_app_runs (h : (install_app ext ipa).Runs trace result) :
    Installing ext ipa trace result := by
  obtain ⟨pcts, rest, rfl, hrest⟩ := (Prog.runs_perform_bind _ _ _ _).mp h
  obtain ⟨reports, _, last, rfl, hreports, hlast⟩ := (Prog.runs_bind _ _ _ _).mp hrest
  obtain ⟨r, _, rfl, hdone⟩ := (Prog.runs_perform_bind _ _ _ _).mp hlast
  obtain ⟨hwrites, hsent⟩ := report_progress_runs hreports
  cases r with
  | error e =>
      obtain ⟨rfl, rfl⟩ := hdone
      exact .mk hwrites hsent ⟨_, rfl⟩
  | ok _ =>
      obtain ⟨rfl, rfl⟩ := hdone
      exact .mk hwrites hsent rfl

def content_size (req : Value) : UInt64 := ((req.get "contentSize").as_u64).getD 0

-- What is received of an app, and how it ends without an installation or with one.
inductive Received (ext : Ext) (ctx : Ctx) (req : Value) :
    Prog.Trace Resp → Option (Except Int64 Unit) → Prop
  | refused {code : Int64} (size : content_size req = 0 ∨ MAX_IPA < content_size req) :
      Received ext ctx req [] (some (.error code))
  | cut {code : Int64} {r : ReadOutcome (content_size req).toNat}
      (positive : content_size req ≠ 0) (bounded : content_size req ≤ MAX_IPA)
      (cut : ∀ b, r ≠ .bytes b) :
      Received ext ctx req [⟨.read_exact (content_size req).toNat IPA_TIMEOUT, r⟩]
        (some (.error code))
  | no_frame {code : Int64}
      {ipa : { bytes : Octets // bytes.length = (content_size req).toNat }}
      {next : Prog.Trace Resp} {got : Except Str (Option Octets)}
      (positive : content_size req ≠ 0) (bounded : content_size req ≤ MAX_IPA)
      (read : FrameRead next got) (none_got : ∀ frame, got ≠ .ok (some frame)) :
      Received ext ctx req
        (⟨.read_exact (content_size req).toNat IPA_TIMEOUT, .bytes ipa⟩ :: next)
        (some (.error code))
  | unfit {code : Int64} {ipa : { bytes : Octets // bytes.length = (content_size req).toNat }}
      {next : Prog.Trace Resp} {frame : Octets}
      (positive : content_size req ≠ 0) (bounded : content_size req ≤ MAX_IPA)
      (read : FrameRead next (.ok (some frame))) :
      Received ext ctx req
        (⟨.read_exact (content_size req).toNat IPA_TIMEOUT, .bytes ipa⟩ :: next)
        (some (.error code))
  | whole {ipa : { bytes : Octets // bytes.length = (content_size req).toNat }}
      {next events : Prog.Trace Resp} {frame : Octets} {result : Option (Except Int64 Unit)}
      (positive : content_size req ≠ 0) (bounded : content_size req ≤ MAX_IPA)
      (read : FrameRead next (.ok (some frame)))
      (run : (with_phone ext ctx (install_app ext ipa.1)).Runs events result) :
      Received ext ctx req
        (⟨.read_exact (content_size req).toNat IPA_TIMEOUT, .bytes ipa⟩ :: next ++ events) result

theorem receive_and_install_runs {req : Value}
    (h : (receive_and_install ext ctx req).Runs trace result) : Received ext ctx req trace result := by
  unfold receive_and_install at h
  change (if content_size req = 0 ∨ MAX_IPA < content_size req then _ else _ : Act _).Runs _ _ at h
  split at h
  case isTrue hsize =>
    obtain ⟨rfl, rfl⟩ := h
    exact .refused hsize
  case isFalse hsize =>
    obtain ⟨hpos, hle⟩ := not_or.mp hsize
    have hle := UInt64.not_lt.mp hle
    obtain ⟨r, rest, rfl, hrest⟩ := (Prog.runs_perform_bind _ _ _ _).mp h
    cases r with
    | expired lost =>
        obtain ⟨rfl, rfl⟩ := hrest
        exact .cut hpos hle nofun
    | failed kind lost =>
        obtain ⟨rfl, rfl⟩ := hrest
        exact .cut hpos hle nofun
    | bytes ipa =>
        obtain ⟨next, got, events, rfl, hnext, hevents⟩ := (Prog.runs_bind _ _ _ _).mp hrest
        have hread := read_frame_runs hnext
        rcases got with e | _ | frame
        · obtain ⟨rfl, rfl⟩ := hevents
          rw [List.append_nil]
          exact .no_frame hpos hle hread nofun
        · obtain ⟨rfl, rfl⟩ := hevents
          rw [List.append_nil]
          exact .no_frame hpos hle hread nofun
        · dsimp only at hevents
          split at hevents
          · obtain ⟨rfl, rfl⟩ := hevents
            rw [List.append_nil]
            exact .unfit hpos hle hread
          · split at hevents
            · obtain ⟨rfl, rfl⟩ := hevents
              rw [List.append_nil]
              exact .unfit hpos hle hread
            · exact .whole hpos hle hread hevents

end Installation

section Dispatch

variable {req : Value} {reply : Option Value}

theorem asked_once {a b : String} (ha : identifier req = a.toList) (hb : identifier req = b.toList)
    (hne : a ≠ b) : False := hne (String.toList_inj.mp (ha.symm.trans hb))

-- The final message of an installation.
def final_of : Except Int64 Unit → Value
  | .ok _ => progress 1
  | .error code => error code

inductive Dispatched (ext : Ext) (ctx : Ctx) (req : Value) : Prog.Trace Resp → Option Value → Prop
  | anisette {trace : Prog.Trace Resp} {reply : Value}
      (asked : identifier req = "AnisetteDataRequest".toList) (run : anisette.Runs trace reply) :
      Dispatched ext ctx req trace (some reply)
  | install {trace : Prog.Trace Resp} {reply : Option Value}
      (asked : identifier req = "InstallProvisioningProfilesRequest".toList)
      (run : (install_profiles ext ctx req).Runs trace reply) : Dispatched ext ctx req trace reply
  | remove {trace : Prog.Trace Resp} {reply : Option Value}
      (asked : identifier req = "RemoveProvisioningProfilesRequest".toList)
      (run : (remove_profiles ext ctx req).Runs trace reply) : Dispatched ext ctx req trace reply
  | remove_app {trace : Prog.Trace Resp} {reply : Option Value}
      (asked : identifier req = "RemoveAppRequest".toList)
      (run : (remove_app ext ctx req).Runs trace reply) : Dispatched ext ctx req trace reply
  | prepare {trace : Prog.Trace Resp} {result : Option (Except Int64 Unit)}
      (asked : identifier req = "PrepareAppRequest".toList)
      (run : (receive_and_install ext ctx req).Runs trace result) :
      Dispatched ext ctx req trace (result.map final_of)
  | refused {code : Int64} (asked : identifier req = "EnableUnsignedCodeExecutionRequest".toList ∨
      identifier req ∉ ["AnisetteDataRequest".toList, "InstallProvisioningProfilesRequest".toList,
        "RemoveProvisioningProfilesRequest".toList, "RemoveAppRequest".toList,
        "EnableUnsignedCodeExecutionRequest".toList, "PrepareAppRequest".toList]) :
      Dispatched ext ctx req [] (some (error code))

theorem dispatch_runs (h : (dispatch ext ctx req).Runs trace reply) :
    Dispatched ext ctx req trace reply := by
  have hid : (req.get "identifier").as_str.getD [] = identifier req := rfl
  simp only [dispatch, hid] at h
  by_cases hanisette : identifier req = "AnisetteDataRequest".toList
  · rw [if_pos hanisette] at h
    obtain ⟨first, v, _, rfl, hrun, rfl, rfl⟩ := (Prog.runs_bind _ _ _ _).mp h
    rw [List.append_nil]
    exact .anisette hanisette hrun
  rw [if_neg hanisette] at h
  by_cases hinstall : identifier req = "InstallProvisioningProfilesRequest".toList
  · rw [if_pos hinstall] at h
    exact .install hinstall h
  rw [if_neg hinstall] at h
  by_cases hremove : identifier req = "RemoveProvisioningProfilesRequest".toList
  · rw [if_pos hremove] at h
    exact .remove hremove h
  rw [if_neg hremove] at h
  by_cases happ : identifier req = "RemoveAppRequest".toList
  · rw [if_pos happ] at h
    exact .remove_app happ h
  rw [if_neg happ] at h
  by_cases hjit : identifier req = "EnableUnsignedCodeExecutionRequest".toList
  · rw [if_pos hjit] at h
    obtain ⟨rfl, rfl⟩ := h
    exact .refused (.inl hjit)
  rw [if_neg hjit] at h
  by_cases hprepare : identifier req = "PrepareAppRequest".toList
  · rw [if_pos hprepare] at h
    obtain ⟨first, result, last, rfl, hrun, hlast⟩ := (Prog.runs_bind _ _ _ _).mp h
    have hreply : last = [] ∧ result.map final_of = reply := by
      rcases result with _ | code | _ <;> exact hlast
    obtain ⟨rfl, rfl⟩ := hreply
    rw [List.append_nil]
    exact .prepare hprepare hrun
  rw [if_neg hprepare] at h
  obtain ⟨rfl, rfl⟩ := h
  refine .refused (.inr ?_)
  simp only [List.mem_cons, not_or]
  exact ⟨hanisette, hinstall, hremove, happ, hjit, hprepare, List.not_mem_nil⟩

-- Only an app is read from the stream, and only its progress is written.
theorem dispatch_off_stream (h : (dispatch ext ctx req).Runs trace reply)
    (hid : identifier req ≠ "PrepareAppRequest".toList) : OffStream trace := by
  cases dispatch_runs h with
  | anisette asked run =>
      have huses : anisette.Uses (·.on_stream = false) :=
        anisette_uses rfl rfl rfl (fun _ => rfl) rfl
      exact huses.mem run
  | install asked run =>
      have huses : (install_profiles ext ctx req).Uses (·.on_stream = false) :=
        install_profiles_uses (fun _ => Cmd.off_stream_of_around) fun _ => rfl
      exact huses.mem run
  | remove asked run =>
      have huses : (remove_profiles ext ctx req).Uses (·.on_stream = false) :=
        remove_profiles_uses (fun _ => Cmd.off_stream_of_around) rfl fun _ => rfl
      exact huses.mem run
  | remove_app asked run =>
      have huses : (remove_app ext ctx req).Uses (·.on_stream = false) :=
        remove_app_uses (fun _ => Cmd.off_stream_of_around) rfl fun _ => rfl
      exact huses.mem run
  | prepare asked run => exact absurd asked hid
  | refused asked => exact List.forall_mem_nil _

theorem dispatch_prepare (h : (dispatch ext ctx req).Runs trace reply)
    (hid : identifier req = "PrepareAppRequest".toList) :
    ∃ result, (receive_and_install ext ctx req).Runs trace result ∧ reply = result.map final_of := by
  cases dispatch_runs h with
  | prepare asked run => exact ⟨_, run, rfl⟩
  | anisette asked run => exact (asked_once asked hid (by decide)).elim
  | install asked run => exact (asked_once asked hid (by decide)).elim
  | remove asked run => exact (asked_once asked hid (by decide)).elim
  | remove_app asked run => exact (asked_once asked hid (by decide)).elim
  | refused asked =>
      rcases asked with asked | asked
      · exact (asked_once asked hid (by decide)).elim
      · simp [hid] at asked

theorem dispatch_unlogged (h : (dispatch ext ctx req).Runs trace reply) : Unlogged trace := by
  have huses : (dispatch ext ctx req).Uses (·.logs = false) := dispatch_uses fun _ => Cmd.logs_of_serves
  exact huses.mem h

end Dispatch

section Session

variable {ending : Ending}

-- The run of a connection, with the number of requests it may still serve.
inductive Session (ext : Ext) (ctx : Ctx) : Nat → Prog.Trace Resp → Ending → Prop
  | unfinished : Session ext ctx 0 [] .unfinished
  | ended {fuel : Nat} {head : Prog.Trace Resp} {got : Except Str (Option Octets)}
      (read : FrameRead head got) (none_got : ∀ frame, got ≠ .ok (some frame)) :
      Session ext ctx (fuel + 1) head .closed
  | malformed {fuel : Nat} {head : Prog.Trace Resp} {frame : Octets} {r : Except Str Unit}
      (read : FrameRead head (.ok (some frame))) (json : ext.from_slice frame = none) :
      Session ext ctx (fuel + 1)
        (head ++ [⟨.write_all (frame_of ext (error ERR_INVALID_REQUEST)), r⟩]) .closed
  | panicked {fuel : Nat} {head events : Prog.Trace Resp} {frame : Octets} {req : Value}
      (read : FrameRead head (.ok (some frame))) (json : ext.from_slice frame = some req)
      (run : (dispatch ext ctx req).Runs events none) :
      Session ext ctx (fuel + 1) (head ++ ⟨.log_request req, ()⟩ :: events) .panicked
  | unheard {fuel : Nat} {head events : Prog.Trace Resp} {frame : Octets} {req reply : Value}
      {e : Str} (read : FrameRead head (.ok (some frame))) (json : ext.from_slice frame = some req)
      (run : (dispatch ext ctx req).Runs events (some reply)) :
      Session ext ctx (fuel + 1)
        (head ++ ⟨.log_request req, ()⟩ :: (events ++ [⟨.write_all (frame_of ext reply), .error e⟩]))
        .closed
  | answered {fuel : Nat} {head events rest : Prog.Trace Resp} {frame : Octets} {req reply : Value}
      {ending : Ending} (read : FrameRead head (.ok (some frame)))
      (json : ext.from_slice frame = some req)
      (run : (dispatch ext ctx req).Runs events (some reply)) (more : Session ext ctx fuel rest ending) :
      Session ext ctx (fuel + 1)
        (head ++ ⟨.log_request req, ()⟩ ::
          (events ++ ⟨.write_all (frame_of ext reply), .ok ()⟩ :: rest)) ending

theorem handle_connection_runs {fuel : Nat}
    (h : (handle_connection ext ctx fuel).Runs trace ending) : Session ext ctx fuel trace ending := by
  induction fuel generalizing trace with
  | zero =>
      obtain ⟨rfl, rfl⟩ := h
      exact .unfinished
  | succ fuel ih =>
      obtain ⟨head, got, tail, rfl, hhead, htail⟩ := (Prog.runs_bind _ _ _ _).mp h
      have hread := read_frame_runs hhead
      rcases got with e | _ | frame
      · obtain ⟨rfl, rfl⟩ := htail
        rw [List.append_nil]
        exact .ended hread nofun
      · obtain ⟨rfl, rfl⟩ := htail
        rw [List.append_nil]
        exact .ended hread nofun
      · dsimp only at htail
        split at htail
        case h_1 hjson =>
          obtain ⟨r, _, rfl, rfl, rfl⟩ := (Prog.runs_perform_bind _ _ _ _).mp htail
          exact .malformed hread hjson
        case h_2 req hjson =>
          obtain ⟨_, rest, rfl, hrest⟩ := (Prog.runs_perform_bind _ _ _ _).mp htail
          obtain ⟨events, reply, last, rfl, hevents, hlast⟩ := (Prog.runs_bind _ _ _ _).mp hrest
          cases reply with
          | none =>
              obtain ⟨rfl, rfl⟩ := hlast
              rw [List.append_nil]
              exact .panicked hread hjson hevents
          | some reply =>
              obtain ⟨r, more, rfl, hmore⟩ := (Prog.runs_perform_bind _ _ _ _).mp hlast
              cases r with
              | error e =>
                  obtain ⟨rfl, rfl⟩ := hmore
                  exact .unheard hread hjson hevents
              | ok _ => exact .answered hread hjson hevents (ih hmore)

end Session

end AltKeeper.AltServer
