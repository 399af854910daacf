import AltKeeper.AltServer.Calls

-- What the four operations on the phone do in a run: their calls, when they succeed, and when
-- the parser panics.
namespace AltKeeper.AltServer

variable {ext : Ext} {trace : Prog.Trace Resp} {result : Option (Except Int64 Unit)}

section Install

def FailedInstall (trace : Prog.Trace Resp) : Prop := ∃ blob e, ⟨.install blob, .error e⟩ ∈ trace

theorem install_blobs_uses (blobs : List Octets) {P : Cmd → Prop} (h : ∀ blob, P (.install blob)) :
    (install_blobs ext blobs).Uses P := by
  induction blobs with
  | nil => trivial
  | cons blob blobs ih =>
      unfold install_blobs
      split
      · trivial
      · refine ⟨h blob, fun r => ?_⟩
        cases r with
        | error e => trivial
        | ok _ => exact ih

-- The blobs are installed in order, up to the first that the parser panics on or the phone
-- refuses.
theorem install_blobs_ok {blobs : List Octets}
    (h : (install_blobs ext blobs).Runs trace (some (.ok ()))) :
    ∀ blob ∈ blobs, ⟨.install blob, .ok ()⟩ ∈ trace := by
  induction blobs generalizing trace with
  | nil => simp
  | cons blob blobs ih =>
      unfold install_blobs at h
      split at h
      · exact nomatch h.2
      · obtain ⟨r, rest, rfl, hrest⟩ := h
        cases r with
        | error e => exact nomatch hrest.2
        | ok _ =>
            intro b hb
            rcases List.mem_cons.mp hb with rfl | hb
            · exact List.mem_cons_self
            · exact List.mem_cons_of_mem _ (ih hrest b hb)

theorem install_blobs_panics {blobs : List Octets} (h : (install_blobs ext blobs).Runs trace result) :
    result = none ↔ ¬ FailedInstall trace ∧ ∃ blob ∈ blobs, ext.parse blob = none := by
  induction blobs generalizing trace with
  | nil =>
      obtain ⟨-, rfl⟩ := h
      simp
  | cons blob blobs ih =>
      unfold install_blobs at h
      split at h
      case h_1 hparse =>
        obtain ⟨rfl, rfl⟩ := h
        simp [FailedInstall, hparse]
      case h_2 parsed hparse =>
        obtain ⟨r, rest, rfl, hrest⟩ := h
        cases r with
        | error e =>
            obtain ⟨-, rfl⟩ := hrest
            have hfailed : FailedInstall (⟨.install blob, .error e⟩ :: rest) :=
              ⟨blob, e, List.mem_cons_self⟩
            simp [hfailed]
        | ok _ =>
            rw [ih hrest]
            simp [FailedInstall, hparse]

end Install

section Remove

theorem remove_matching_uses (wanted : List Str) (raw : List Octets) {P : Cmd → Prop}
    (h : ∀ uuid, P (.remove uuid)) : (remove_matching ext wanted raw).Uses P := by
  induction raw with
  | nil => trivial
  | cons x raw ih =>
      unfold remove_matching
      split
      · trivial
      · exact ih
      · apply Prog.Uses.bind
        · unfold remove_if_wanted
          split
          · exact ⟨h _, fun _ => trivial⟩
          · trivial
        · exact fun _ => ih

-- The profile is one of those, and the parser reads in it a bundle that is wanted.
def Wanted (ext : Ext) (wanted : List Str) (raw : List Octets) (p : Profile.PhoneProfile) : Prop :=
  (∃ x ∈ raw, ext.parse x = some (some p)) ∧ matches_wanted ext wanted p = true

theorem remove_if_wanted_runs {wanted : List Str} {p : Profile.PhoneProfile}
    (h : (remove_if_wanted ext wanted p).Runs trace ()) :
    (matches_wanted ext wanted p = true ∧ ∃ r, trace = [⟨.remove p.uuid, r⟩]) ∨
      (matches_wanted ext wanted p = false ∧ trace = []) := by
  unfold remove_if_wanted at h
  split at h
  case isTrue hmatch =>
    obtain ⟨r, rest, rfl, rfl, -⟩ := h
    exact .inl ⟨hmatch, r, rfl⟩
  case isFalse hmatch => exact .inr ⟨eq_false_of_ne_true hmatch, h.1⟩

theorem remove_matching_only {wanted : List Str} {raw : List Octets}
    (h : (remove_matching ext wanted raw).Runs trace result) {uuid : Str}
    {r : Except Str Unit} (hmem : ⟨.remove uuid, r⟩ ∈ trace) :
    ∃ p, Wanted ext wanted raw p ∧ p.uuid = uuid := by
  induction raw generalizing trace with
  | nil =>
      obtain ⟨rfl, -⟩ := h
      cases hmem
  | cons x raw ih =>
      have hlater : ∀ {p}, Wanted ext wanted raw p → Wanted ext wanted (x :: raw) p := by
        rintro p ⟨⟨y, hy, hp⟩, hm⟩
        exact ⟨⟨y, List.mem_cons_of_mem _ hy, hp⟩, hm⟩
      unfold remove_matching at h
      split at h
      · obtain ⟨rfl, -⟩ := h
        cases hmem
      · obtain ⟨p, hp, huuid⟩ := ih h hmem
        exact ⟨p, hlater hp, huuid⟩
      case h_3 p hparse =>
        obtain ⟨first, _, rest, rfl, hfirst, hrest⟩ := (Prog.runs_bind _ _ _ _).mp h
        rcases List.mem_append.mp hmem with hmem | hmem
        · rcases remove_if_wanted_runs hfirst with ⟨hmatch, _, rfl⟩ | ⟨-, rfl⟩
          · cases List.mem_singleton.mp hmem
            exact ⟨p, ⟨⟨x, List.mem_cons_self, hparse⟩, hmatch⟩, rfl⟩
          · cases hmem
        · obtain ⟨p', hp', huuid⟩ := ih hrest hmem
          exact ⟨p', hlater hp', huuid⟩

theorem remove_matching_all {wanted : List Str} {raw : List Octets}
    (h : (remove_matching ext wanted raw).Runs trace (some (.ok ()))) {p : Profile.PhoneProfile}
    (hp : Wanted ext wanted raw p) : ∃ r, ⟨.remove p.uuid, r⟩ ∈ trace := by
  induction raw generalizing trace with
  | nil =>
      obtain ⟨⟨x, hx, -⟩, -⟩ := hp
      cases hx
  | cons x raw ih =>
      obtain ⟨⟨y, hy, hparse⟩, hmatch⟩ := hp
      unfold remove_matching at h
      rcases List.mem_cons.mp hy with rfl | hy
      · rw [hparse] at h
        obtain ⟨first, _, rest, rfl, hfirst, -⟩ := (Prog.runs_bind _ _ _ _).mp h
        rcases remove_if_wanted_runs hfirst with ⟨-, r, rfl⟩ | ⟨hno, -⟩
        · exact ⟨r, List.mem_append_left _ List.mem_cons_self⟩
        · exact nomatch hmatch.symm.trans hno
      · split at h
        · exact nomatch h.2
        · exact ih h ⟨⟨y, hy, hparse⟩, hmatch⟩
        · obtain ⟨first, _, rest, rfl, -, hrest⟩ := (Prog.runs_bind _ _ _ _).mp h
          obtain ⟨r, hr⟩ := ih hrest ⟨⟨y, hy, hparse⟩, hmatch⟩
          exact ⟨r, List.mem_append_right _ hr⟩

-- A removal that fails is passed over: only the parser stops the loop.
theorem remove_matching_result {wanted : List Str} {raw : List Octets}
    (h : (remove_matching ext wanted raw).Runs trace result) :
    (result = none ∧ ∃ x ∈ raw, ext.parse x = none) ∨
      (result = some (.ok ()) ∧ ∀ x ∈ raw, ext.parse x ≠ none) := by
  induction raw generalizing trace with
  | nil =>
      obtain ⟨-, rfl⟩ := h
      simp
  | cons x raw ih =>
      unfold remove_matching at h
      split at h
      case h_1 hparse =>
        obtain ⟨-, rfl⟩ := h
        exact .inl ⟨rfl, x, List.mem_cons_self, hparse⟩
      case h_2 hparse =>
        simpa [hparse] using ih h
      case h_3 p hparse =>
        obtain ⟨first, _, rest, rfl, -, hrest⟩ := (Prog.runs_bind _ _ _ _).mp h
        simpa [hparse] using ih hrest

end Remove

section Apps

variable {bundle : Str}

theorem uninstall_uses {P : Cmd → Prop} (hconnect : P .connect_installer)
    (huninstall : P (.uninstall bundle)) : (uninstall bundle).Uses P := by
  refine ⟨hconnect, fun r => ?_⟩
  cases r with
  | error e => trivial
  | ok _ =>
      refine ⟨huninstall, fun r => ?_⟩
      cases r <;> trivial

theorem uninstall_runs (h : (uninstall bundle).Runs trace result) :
    (∃ code, result = some (.error code)) ∨
      (result = some (.ok ()) ∧ ⟨.uninstall bundle, .ok ()⟩ ∈ trace) := by
  obtain ⟨r, rest, rfl, hrest⟩ := (Prog.runs_perform_bind _ _ _ _).mp h
  cases r with
  | error e =>
      obtain ⟨-, rfl⟩ := hrest
      exact .inl ⟨_, rfl⟩
  | ok _ =>
      obtain ⟨r', _, rfl, hlast⟩ := (Prog.runs_perform_bind _ _ _ _).mp hrest
      cases r' with
      | error e =>
          obtain ⟨-, rfl⟩ := hlast
          exact .inl ⟨_, rfl⟩
      | ok _ =>
          obtain ⟨rfl, rfl⟩ := hlast
          exact .inr ⟨rfl, by simp⟩

end Apps

section Replied

variable {ctx : Ctx} {req : Value} {reply : Option Value}

-- The reply to an operation, from how its work ended.
def replied (identifier : String) : Except Int64 Unit → Value
  | .ok () => simple identifier
  | .error code => error code

theorem replied_runs {work : Act (Option (Except Int64 Unit))} {identifier : String}
    (h : (work >>= fun result => match result with
      | none => return none
      | some (.error code) => return some (error code)
      | some (.ok ()) => return some (simple identifier)).Runs trace reply) :
    ∃ result, work.Runs trace result ∧ reply = result.map (replied identifier) := by
  obtain ⟨first, result, last, rfl, hwork, hlast⟩ := (Prog.runs_bind _ _ _ _).mp h
  have hreply : last = [] ∧ result.map (replied identifier) = reply := by
    rcases result with _ | _ | _ <;> exact hlast
  obtain ⟨rfl, rfl⟩ := hreply
  exact ⟨result, by rwa [List.append_nil], rfl⟩

theorem install_profiles_replies (h : (install_profiles ext ctx req).Runs trace reply) :
    (decode_profiles req = none ∧ reply = some (error ERR_INVALID_REQUEST)) ∨
      ∃ blobs result, decode_profiles req = some blobs ∧
        (install_all ext ctx blobs).Runs trace result ∧
        reply = result.map (replied "InstallProvisioningProfilesResponse") := by
  unfold install_profiles at h
  cases hdecode : decode_profiles req with
  | none =>
      rw [hdecode] at h
      obtain ⟨-, rfl⟩ := h
      exact .inl ⟨rfl, rfl⟩
  | some blobs =>
      rw [hdecode] at h
      obtain ⟨result, hwork, hreply⟩ := replied_runs h
      exact .inr ⟨blobs, result, rfl, hwork, hreply⟩

theorem remove_profiles_replies (h : (remove_profiles ext ctx req).Runs trace reply) :
    ∃ result, (remove_all ext ctx (wanted_bundles ext req)).Runs trace result ∧
      reply = result.map (replied "RemoveProvisioningProfilesResponse") :=
  replied_runs h

theorem remove_app_replies (h : (remove_app ext ctx req).Runs trace reply) :
    reply = some (error ERR_INVALID_REQUEST) ∨
      ∃ bundle result, (req.get "bundleIdentifier").as_str = some bundle ∧
        (with_phone ext ctx (uninstall bundle)).Runs trace result ∧
        reply = result.map (replied "RemoveAppResponse") := by
  unfold remove_app at h
  split at h
  case h_1 =>
    obtain ⟨-, rfl⟩ := h
    exact .inl rfl
  case h_2 bundle hbundle =>
    obtain ⟨result, hwork, hreply⟩ := replied_runs h
    exact .inr ⟨bundle, result, (Option.filter_eq_some_iff.mp hbundle).1, hwork, hreply⟩

end Replied

section Uses

variable {ctx : Ctx} {req : Value} {P : Cmd → Prop}

theorem cached_anisette_uses (hget : P .get_cache) (hset : ∀ v, P (.set_cache v))
    (hask : P .anisette_for_altstore) : cached_anisette.Uses P := by
  have hfresh : fresh_anisette.Uses P := by
    refine ⟨hask, fun r => ?_⟩
    cases r with
    | error e => trivial
    | ok v => exact ⟨hset v, fun _ => trivial⟩
  refine ⟨hget, fun r => ?_⟩
  rcases r with _ | ⟨age, v⟩
  · exact hfresh
  · show Prog.Uses P (if age < ANISETTE_TTL then _ else _)
    split
    · trivial
    · exact hfresh

theorem anisette_uses (hlock : P .lock_cache) (hunlock : P .unlock_cache) (hget : P .get_cache)
    (hset : ∀ v, P (.set_cache v)) (hask : P .anisette_for_altstore) : anisette.Uses P := by
  refine ⟨hlock, fun _ => ?_⟩
  apply Prog.Uses.bind (cached_anisette_uses hget hset hask)
  exact fun _ => ⟨hunlock, fun _ => trivial⟩

theorem read_frame_uses (hread : ∀ count limit, P (.read_exact count limit)) : read_frame.Uses P := by
  refine .perform_bind (hread _ _) fun r => ?_
  cases r with
  | expired lost => trivial
  | failed kind lost =>
      dsimp only
      split <;> trivial
  | bytes header =>
      dsimp only
      split
      · trivial
      · refine .perform_bind (hread _ _) fun r => ?_
        cases r <;> trivial

theorem install_app_uses (hwrite : ∀ bytes, P (.write_all bytes))
    (hbegin : ∀ ipa, P (.begin_install ipa)) (hend : P .end_install) (ipa : Octets) :
    (install_app ext ipa).Uses P := by
  have hreport (pcts : List UInt64) : (report_progress ext pcts).Uses P := by
    induction pcts with
    | nil => trivial
    | cons pct pcts ih => exact .perform_bind (hwrite _) fun _ => ih
  refine .perform_bind (hbegin ipa) fun pcts => ?_
  apply Prog.Uses.bind (hreport pcts)
  refine fun _ => .perform_bind hend fun r => ?_
  cases r <;> trivial

section Phone

variable (haround : ∀ c : Cmd, c.around = true → P c)

include haround

theorem install_profiles_uses (hinstall : ∀ blob, P (.install blob)) :
    (install_profiles ext ctx req).Uses P := by
  unfold install_profiles
  split
  · trivial
  · apply Prog.Uses.bind
    · unfold install_all
      split
      · trivial
      · exact with_phone_uses haround (install_blobs_uses _ hinstall)
    · intro result
      rcases result with _ | _ | _ <;> trivial

theorem remove_profiles_uses (hcopy : P .copy_all) (hremove : ∀ uuid, P (.remove uuid)) :
    (remove_profiles ext ctx req).Uses P := by
  apply Prog.Uses.bind
  · unfold remove_all
    split
    · trivial
    · apply with_phone_uses haround
      refine ⟨hcopy, fun r => ?_⟩
      cases r with
      | error e => trivial
      | ok raw => exact remove_matching_uses _ raw hremove
  · intro result
    rcases result with _ | _ | _ <;> trivial

theorem remove_app_uses (hconnect : P .connect_installer) (huninstall : ∀ bundle, P (.uninstall bundle)) :
    (remove_app ext ctx req).Uses P := by
  unfold remove_app
  split
  · trivial
  · apply Prog.Uses.bind (with_phone_uses haround (uninstall_uses hconnect (huninstall _)))
    intro result
    rcases result with _ | _ | _ <;> trivial

theorem receive_and_install_uses (hread : ∀ count limit, P (.read_exact count limit))
    (hwrite : ∀ bytes, P (.write_all bytes)) (hbegin : ∀ ipa, P (.begin_install ipa))
    (hend : P .end_install) : (receive_and_install ext ctx req).Uses P := by
  unfold receive_and_install
  dsimp only
  split
  · trivial
  · refine .perform_bind (hread _ _) fun r => ?_
    cases r with
    | expired lost => trivial
    | failed kind lost => trivial
    | bytes ipa =>
        apply Prog.Uses.bind (read_frame_uses hread)
        rintro (_ | _ | frame)
        · trivial
        · trivial
        · dsimp only
          split
          · trivial
          · split
            · trivial
            · exact with_phone_uses haround (install_app_uses hwrite hbegin hend ipa.1)

end Phone

theorem dispatch_uses (hserves : ∀ c : Cmd, c.serves = true → P c) : (dispatch ext ctx req).Uses P := by
  have haround (c : Cmd) (hc : c.around = true) : P c := hserves c (Cmd.serves_of_around hc)
  have hanisette : anisette.Uses P := by
    apply anisette_uses
    all_goals intros; exact hserves _ rfl
  unfold dispatch
  dsimp only
  split
  · apply Prog.Uses.bind hanisette
    exact fun _ => trivial
  · split
    · exact install_profiles_uses haround fun _ => hserves _ rfl
    · split
      · exact remove_profiles_uses haround (hserves _ rfl) fun _ => hserves _ rfl
      · split
        · exact remove_app_uses haround (hserves _ rfl) fun _ => hserves _ rfl
        · split
          · trivial
          · split
            · apply Prog.Uses.bind
              · apply receive_and_install_uses haround
                all_goals intros; exact hserves _ rfl
              · rintro (_ | _ | _) <;> trivial
            · trivial

theorem handle_connection_uses (hserves : ∀ c : Cmd, c.serves = true → P c)
    (hlog : ∀ req, P (.log_request req)) (fuel : Nat) : (handle_connection ext ctx fuel).Uses P := by
  induction fuel with
  | zero => trivial
  | succ fuel ih =>
      apply Prog.Uses.bind (read_frame_uses fun _ _ => hserves _ rfl)
      intro frame
      rcases frame with _ | _ | frame
      · trivial
      · trivial
      · dsimp only
        split
        · exact ⟨hserves _ rfl, fun _ => trivial⟩
        · refine .perform_bind (hlog _) fun _ => Prog.Uses.bind (dispatch_uses hserves) fun reply => ?_
          cases reply with
          | none => trivial
          | some reply =>
              refine .perform_bind (hserves _ rfl) fun sent => ?_
              cases sent with
              | error e => trivial
              | ok _ => exact ih

end Uses

section Connection

variable {ext : Ext} {ctx : Ctx} {σ : Type} {P : Prog.Protocol Resp σ} {s : σ}

-- A connection is back where it began if the stream and every dispatch bring it back there.
theorem handle_connection_returns
    (hstream : ∀ c : Cmd, c.on_stream = true → P.allows s c ∧ ∀ r s', P.step s c r s' → s' = s)
    (hdispatch : ∀ req, (dispatch ext ctx req).wp P (fun _ s' => s' = s) s) (fuel : Nat) :
    (handle_connection ext ctx fuel).wp P (fun _ s' => s' = s) s := by
  have hask : ∀ {α : Type} {c : Cmd} {f : Resp c → Act α} {post : α → σ → Prop},
      c.on_stream = true → (∀ r, (f r).wp P post s) → (ask c >>= f).wp P post s := by
    refine fun hc hf => ⟨(hstream _ hc).1, fun r s' h => ?_⟩
    obtain rfl := (hstream _ hc).2 r s' h
    exact hf r
  induction fuel with
  | zero => rfl
  | succ fuel ih =>
      unfold handle_connection
      refine Prog.wp_seq (Prog.wp_of_uses (read_frame_uses fun _ _ => rfl) hstream) ?_
      rintro r _ rfl
      rcases r with _ | _ | frame
      · rfl
      · rfl
      · dsimp only
        cases hreq : ext.from_slice frame with
        | none => exact hask rfl fun _ => rfl
        | some req =>
            refine hask rfl fun _ => Prog.wp_seq (hdispatch req) ?_
            rintro reply _ rfl
            cases reply with
            | none => rfl
            | some reply =>
                refine hask rfl fun sent => ?_
                cases sent with
                | error e => rfl
                | ok _ => exact ih

end Connection

end AltKeeper.AltServer
