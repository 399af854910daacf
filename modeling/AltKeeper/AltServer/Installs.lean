import AltKeeper.AltServer.Session

-- A request to install profiles is validated whole, and then installs them in order.
namespace AltKeeper.AltServer

variable {ext : Ext} {ctx : Ctx} {req : Value} {events : Prog.Trace Resp} {blobs : List Octets}

-- The request lists these blobs: an array of strings, each of which decodes to its blob.
def Lists (req : Value) (blobs : List Octets) : Prop :=
  ∃ values, req.get "provisioningProfiles" = .array values ∧
    List.Forall₂ (fun v blob => ∃ s, v = .string s ∧ b64_decode s = some blob) values blobs

-- The blobs given to the phone to install, in order, with its answers.
def tried : Prog.Trace Resp → List (Octets × Except Str Unit)
  | [] => []
  | ⟨.install blob, r⟩ :: trace => (blob, r) :: tried trace
  | _ :: trace => tried trace

-- They are the first of the blobs, and only the last of them can have failed.
structure InOrder (blobs : List Octets) (tried : List (Octets × Except Str Unit)) : Prop where
  first : tried.map Prod.fst <+: blobs
  stops : ∀ t ∈ tried.dropLast, succeeded t.2 = true

def AllInstalled (blobs : List Octets) (tried : List (Octets × Except Str Unit)) : Prop :=
  tried.map Prod.fst = blobs ∧ ∀ t ∈ tried, succeeded t.2 = true

section Decode

theorem mapM_eq_some {α β : Type} {f : α → Option β} {as : List α} {bs : List β} :
    as.mapM f = some bs ↔ List.Forall₂ (fun a b => f a = some b) as bs := by
  induction as generalizing bs with
  | nil =>
      constructor
      · rintro ⟨⟩
        exact .nil
      · rintro ⟨⟩
        rfl
  | cons a as ih =>
      rw [List.mapM_cons]
      constructor
      · intro h
        obtain ⟨b, hb, hrest⟩ := Option.bind_eq_some_iff.mp h
        obtain ⟨bs', hbs', hall⟩ := Option.bind_eq_some_iff.mp hrest
        obtain rfl := Option.some.inj hall
        exact .cons hb (ih.mp hbs')
      · rintro (_ | ⟨hb, hbs⟩)
        exact Option.bind_eq_some_iff.mpr ⟨_, hb, Option.bind_eq_some_iff.mpr ⟨_, ih.mpr hbs, rfl⟩⟩

theorem decode_profiles_iff : decode_profiles req = some blobs ↔ Lists req blobs := by
  have hvalue (v : Value) (blob : Octets) : (do b64_decode (← v.as_str)) = some blob ↔
      ∃ s, v = .string s ∧ b64_decode s = some blob := by
    cases v <;> simp [Value.as_str]
  unfold decode_profiles Lists
  cases req.get "provisioningProfiles" with
  | array values =>
      change values.mapM _ = some blobs ↔ _
      rw [mapM_eq_some]
      simp only [hvalue, Value.array.injEq, exists_eq_left']
  | _ => exact iff_of_false nofun nofun

end Decode

section Install

theorem tried_append (first rest : Prog.Trace Resp) :
    tried (first ++ rest) = tried first ++ tried rest := by
  induction first with
  | nil => rfl
  | cons e first ih =>
      obtain ⟨c, r⟩ := e
      cases c <;> simp only [List.cons_append, tried, ih]

theorem tried_of_around {trace : Prog.Trace Resp} (h : ∀ e ∈ trace, e.1.around = true) :
    tried trace = [] := by
  apply Prog.Trace.skip_all tried (·.around = true) _ h
  intro c r rest hc
  cases c <;> first | rfl | cases hc

theorem install_blobs_tried {result : Option (Except Int64 Unit)}
    (h : (install_blobs ext blobs).Runs events result) :
    InOrder blobs (tried events) ∧
      (result = some (.ok ()) ↔ AllInstalled blobs (tried events)) := by
  induction blobs generalizing events with
  | nil =>
      obtain ⟨rfl, rfl⟩ := h
      exact ⟨⟨List.nil_prefix, List.forall_mem_nil _⟩, iff_of_true rfl ⟨rfl, List.forall_mem_nil _⟩⟩
  | cons blob blobs ih =>
      unfold install_blobs at h
      split at h
      case h_1 =>
        obtain ⟨rfl, rfl⟩ := h
        exact ⟨⟨List.nil_prefix, List.forall_mem_nil _⟩, iff_of_false nofun fun hall => nomatch hall.1⟩
      case h_2 =>
        obtain ⟨r, rest, rfl, hrest⟩ := (Prog.runs_perform_bind _ _ _ _).mp h
        cases r with
        | error e =>
            obtain ⟨rfl, rfl⟩ := hrest
            refine ⟨⟨?_, List.forall_mem_nil _⟩, iff_of_false nofun fun hall => ?_⟩
            · exact List.cons_prefix_cons.mpr ⟨rfl, List.nil_prefix⟩
            · exact absurd (hall.2 (blob, .error e) List.mem_cons_self) Bool.false_ne_true
        | ok _ =>
            obtain ⟨⟨hfirst, hstops⟩, hiff⟩ := ih hrest
            refine ⟨⟨?_, ?_⟩, hiff.trans ?_⟩
            · exact List.cons_prefix_cons.mpr ⟨rfl, hfirst⟩
            · intro t ht
              rw [tried] at ht
              cases hrest' : tried rest with
              | nil =>
                  rw [hrest'] at ht
                  exact absurd ht List.not_mem_nil
              | cons t' ts =>
                  rw [hrest', List.dropLast_cons_cons] at ht
                  rw [hrest'] at hstops
                  rcases List.mem_cons.mp ht with rfl | ht
                  · rfl
                  · exact hstops t ht
            · rw [AllInstalled, AllInstalled, tried, List.map_cons, List.forall_mem_cons]
              simp [succeeded]

theorem install_profiles_tried {reply : Option Value}
    (h : (install_profiles ext ctx req).Runs events reply) (hlists : Lists req blobs) :
    InOrder blobs (tried events) ∧
      (reply = some (simple "InstallProvisioningProfilesResponse") ↔
        AllInstalled blobs (tried events)) := by
  have hdecode := decode_profiles_iff.mpr hlists
  rcases install_profiles_replies h with ⟨hnone, -⟩ | ⟨blobs', result, hblobs, hfirst, rfl⟩
  · cases hdecode.symm.trans hnone
  obtain rfl := Option.some.inj (hdecode.symm.trans hblobs)
  have hreply : result.map (replied "InstallProvisioningProfilesResponse") =
      some (simple "InstallProvisioningProfilesResponse") ↔ result = some (.ok ()) := by
    rcases result with _ | code | _
    · exact iff_of_false nofun nofun
    · refine iff_of_false ?_ nofun
      simp [replied, error, simple]
    · exact iff_of_true rfl rfl
  rw [hreply]
  unfold install_all at hfirst
  split at hfirst
  case isTrue hnone =>
    obtain ⟨rfl, rfl⟩ := hfirst
    rw [hnone]
    exact ⟨⟨List.nil_prefix, List.forall_mem_nil _⟩, iff_of_true rfl ⟨rfl, List.forall_mem_nil _⟩⟩
  case isFalse hsome =>
    rcases with_phone_runs hfirst with hrefused | ⟨before, during, after, rfl, hrun, haround, -⟩
    · obtain ⟨code, rfl⟩ := hrefused.result
      rw [tried_of_around hrefused.around]
      exact ⟨⟨List.nil_prefix, List.forall_mem_nil _⟩,
        iff_of_false nofun fun hall => hsome hall.1.symm⟩
    · have hbefore := tried_of_around fun e he => haround e (List.mem_append_left _ he)
      have hafter := tried_of_around fun e he => haround e (List.mem_append_right _ he)
      rw [tried_append, tried_append, hbefore, hafter, List.nil_append, List.append_nil]
      exact install_blobs_tried hrun

theorem dispatch_install {reply : Option Value} (h : (dispatch ext ctx req).Runs events reply)
    (hid : identifier req = "InstallProvisioningProfilesRequest".toList) :
    (install_profiles ext ctx req).Runs events reply := by
  unfold identifier at hid
  dsimp only [dispatch] at h
  rwa [hid, if_neg (by decide), if_pos rfl] at h

-- Without a list of blobs the phone is left alone; with one they are installed in order, up to
-- the first that fails, and the reply is a success exactly when none does.
theorem install_request_in_order {reply : Option Value}
    (hid : identifier req = "InstallProvisioningProfilesRequest".toList)
    (run : (dispatch ext ctx req).Runs events reply) :
    ((∀ blobs, ¬ Lists req blobs) → events = [] ∧ reply = some (error ERR_INVALID_REQUEST)) ∧
    ∀ blobs, Lists req blobs → InOrder blobs (tried events) ∧
      (reply = some (simple "InstallProvisioningProfilesResponse") ↔
        AllInstalled blobs (tried events)) := by
  have hrun := dispatch_install run hid
  refine ⟨fun hnone => ?_, fun blobs hlists => install_profiles_tried hrun hlists⟩
  unfold install_profiles at hrun
  cases hdecode : decode_profiles req with
  | some blobs => exact absurd (decode_profiles_iff.mp hdecode) (hnone blobs)
  | none =>
      rw [hdecode] at hrun
      exact ⟨hrun.1, hrun.2.symm⟩

end Install

section Sample

def install_two : Value := sample_request "InstallProvisioningProfilesRequest"
  [("provisioningProfiles", .array [.string "YQ==".toList, .string "Yg==".toList])]

-- A phone within reach that refuses the second profile.
def refusing_b : (c : Cmd) → Resp c
  | .install blob => if blob = [97] then .ok () else .error []
  | c => reached [] c

theorem install_request_in_order_ab : ∃ events reply,
    (dispatch sample ⟨none⟩ install_two).Runs events reply ∧
    InOrder [[97], [98]] (tried events) ∧ (tried events).map Prod.fst = [[97], [98]] ∧
    reply ≠ some (simple "InstallProvisioningProfilesResponse") := by
  have hrun := Prog.runs_exec (fun (s : Unit) c => (refusing_b c, s))
    (dispatch sample ⟨none⟩ install_two) ()
  have hlists : Lists install_two [[97], [98]] :=
    ⟨_, rfl, .cons ⟨_, rfl, by decide⟩ (.cons ⟨_, rfl, by decide⟩ .nil)⟩
  have hresult := (install_request_in_order (by decide) hrun).2 _ hlists
  have htried : (tried ((dispatch sample ⟨none⟩ install_two).exec
      (fun (s : Unit) c => (refusing_b c, s)) ()).1).map (fun t => (t.1, succeeded t.2)) =
      [([97], true), ([98], false)] := by decide +kernel
  refine ⟨_, _, hrun, hresult.1, ?_, ?_⟩
  · have hfst := congrArg (List.map Prod.fst) htried
    rw [List.map_map] at hfst
    exact hfst
  · rw [ne_eq, hresult.2]
    rintro ⟨-, hall⟩
    have hmem : ([98], false) ∈ ((tried ((dispatch sample ⟨none⟩ install_two).exec
        (fun (s : Unit) c => (refusing_b c, s)) ()).1).map fun t => (t.1, succeeded t.2)) := by
      rw [htried]
      simp
    obtain ⟨t, ht, heq⟩ := List.mem_map.mp hmem
    have hfailed := congrArg Prod.snd heq
    rw [show succeeded t.2 = true from hall t ht] at hfailed
    cases hfailed

end Sample

end AltKeeper.AltServer
