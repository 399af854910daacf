import AltKeeper.Process.Exclusion
import Mathlib.Data.List.Nodup

-- Which profiles a run can take from the phone.
namespace AltKeeper

-- A profile that is still on the phone: no two profiles have its uuid, what the threads saw
-- with that uuid is it, and the request each one serves is the last one the log tells of it.
structure Watched (uuid : Octets → Str) (profile : Octets) (w : World) (q : Tid → Local) : Prop where
  distinct : Distinct uuid w.phone
  seen : ∀ i, ∀ raw ∈ (q i).seen, uuid raw = uuid profile → raw = profile
  asked : ∀ i req, (q i).request = some req → w.requests.find? (·.1 = i) = some (i, req)

section Steps

variable {ext : Ext} {uuid : Octets → Str} {addr : Option SocketAddr} {profile : Octets}
  {w w' : World} {q : Tid → Local} {i : Tid} {c : Cmd} {r : Resp c}

def Cmd.on_phone : Cmd → Bool
  | .copy_all => true
  | .install _ => true
  | .remove _ => true
  | .log_request _ => true
  | _ => false

theorem effect_phone (hc : c.on_phone = false) (h : effect uuid i w c r w') :
    w'.phone = w.phone ∧ w'.requests = w.requests := by
  cases c with
  | connect a =>
      cases r <;>
      · obtain rfl := h
        exact ⟨rfl, rfl⟩
  | try_busy =>
      obtain ⟨-, rfl⟩ := h
      split <;> exact ⟨rfl, rfl⟩
  | _ => first
    | (obtain rfl := h; exact ⟨rfl, rfl⟩)
    | (obtain ⟨-, rfl⟩ := h; exact ⟨rfl, rfl⟩)
    | exact nomatch hc

theorem effect_requests (hc : ∀ req, c ≠ .log_request req) (h : effect uuid i w c r w') :
    w'.requests = w.requests := by
  cases c with
  | copy_all =>
      cases r with
      | ok raw =>
          obtain ⟨-, rfl⟩ := h
          rfl
      | error e =>
          obtain rfl := h
          rfl
  | install blob =>
      obtain ⟨phone, -, rfl⟩ := h
      rfl
  | remove u =>
      obtain ⟨phone, -, rfl⟩ := h
      rfl
  | log_request req => exact absurd rfl (hc req)
  | _ => exact (effect_phone rfl h).2

theorem advance_seen {s : Local} (hc : c.on_phone = false) :
    (s.advance c r).seen = s.seen ∧ (s.advance c r).request = s.request := by
  cases c with
  | connect a => cases r <;> exact ⟨rfl, rfl⟩
  | try_busy => cases r <;> exact ⟨rfl, rfl⟩
  | _ => first | exact ⟨rfl, rfl⟩ | exact nomatch hc

-- On a phone with distinct uuids the uuid tells the profile.
theorem eq_of_uuid {phone : List Octets} (h : Distinct uuid phone) {x y : Octets} (hx : x ∈ phone)
    (hy : y ∈ phone) (huuid : uuid x = uuid y) : x = y :=
  List.inj_on_of_nodup_map h hx hy huuid

namespace Watched

theorem keep {s : Local} (h : Watched uuid profile w q) (hseen : s.seen = (q i).seen)
    (hrequest : s.request = (q i).request) (hdistinct : Distinct uuid w'.phone)
    (hlog : w'.requests = w.requests) : Watched uuid profile w' (Function.update q i s) := by
  refine ⟨hdistinct, fun j => ?_, fun j req => ?_⟩
  · rw [update_same Local.seen hseen]
    exact h.seen j
  · rw [update_same Local.request hrequest, hlog]
    exact h.asked j req

theorem call (h : Watched uuid profile w q) (hpresent : profile ∈ w.phone)
    (heffect : effect uuid i w c r w') :
    Watched uuid profile w' (Function.update q i ((q i).advance c r)) := by
  cases c with
  | copy_all =>
      cases r with
      | error e =>
          obtain rfl := heffect
          exact h.keep rfl rfl h.distinct rfl
      | ok raw =>
          obtain ⟨hraw, rfl⟩ := heffect
          refine ⟨h.distinct, fun j x hx huuid => ?_, fun j req => ?_⟩
          · by_cases hj : j = i
            · subst hj
              rw [Function.update_self] at hx
              exact eq_of_uuid h.distinct ((hraw x).mp hx) hpresent huuid
            · rw [Function.update_of_ne hj] at hx
              exact h.seen j x hx huuid
          · have hrequest : (Function.update q i ((q i).advance .copy_all (.ok raw)) j).request =
                (q j).request := update_same Local.request (by rfl) j
            rw [hrequest]
            exact h.asked j req
  | install blob =>
      obtain ⟨phone, hinstalled, rfl⟩ := heffect
      exact h.keep rfl rfl hinstalled.distinct rfl
  | remove u =>
      obtain ⟨phone, hremoved, rfl⟩ := heffect
      exact h.keep rfl rfl ((hremoved.sublist.map uuid).nodup h.distinct) rfl
  | log_request req =>
      obtain rfl := heffect
      refine ⟨h.distinct, fun j => ?_, fun j req' hreq => ?_⟩
      · have hseen : (Function.update q i ((q i).advance (.log_request req) r) j).seen = (q j).seen :=
          update_same Local.seen (by rfl) j
        rw [hseen]
        exact h.seen j
      · by_cases hj : j = i
        · subst hj
          rw [Function.update_self] at hreq
          obtain rfl := Option.some.inj hreq
          exact List.find?_cons_of_pos (by simp)
        · rw [Function.update_of_ne hj] at hreq
          rw [List.find?_cons_of_neg (by simpa using Ne.symm hj)]
          exact h.asked j req' hreq
  | _ =>
      obtain ⟨hphone, hlog⟩ := effect_phone rfl heffect
      obtain ⟨hseen, hrequest⟩ := advance_seen (s := q i) (r := r) rfl
      exact h.keep hseen hrequest (hphone ▸ h.distinct) hlog

end Watched

end Steps

section Loss

variable {ext : Ext} {uuid : Octets → Str} {addr : Option SocketAddr} {phone : List Octets}

theorem watched_modular (profile : Octets) :
    Threads.Modular ((process ext uuid addr).within fun w => profile ∈ w.phone) (conduct ext)
      (fun _ _ _ _ => True)
      (fun w q => profile ∈ w.phone ∧ Tied w.res q ∧ Watched uuid profile w q) Local.Idle where
  call h hc _ heffect :=
    ⟨_, rfl, heffect.2, h.2.1.call hc heffect.1, h.2.2.call h.1 heffect.1⟩
  start := by
    rintro i w q p w' ⟨hpresent, htied, hwatched⟩ hidle ⟨hp, hgood⟩
    rcases launched_conducts (htied.is_conn i) hidle hp with
      ⟨-, rfl, hwp⟩ | ⟨n, job, rfl, hjob, -, rfl, hwp⟩
    · refine ⟨q i, hwp, ?_⟩
      rw [Function.update_eq_self]
      exact ⟨hpresent, htied, hwatched⟩
    · exact ⟨_, hwp, hpresent, htied.begin hidle hjob, hwatched.keep rfl rfl hwatched.distinct rfl⟩

theorem watched_initial {profile : Octets} (hdistinct : Distinct uuid phone)
    (hpresent : profile ∈ phone) :
    Threads.Conforms (conduct ext)
      (fun w q => profile ∈ w.phone ∧ Tied w.res q ∧ Watched uuid profile w q) Local.Idle
      (initial phone) := by
  refine ⟨fresh, ⟨hpresent, fresh_tied, hdistinct, ?_, ?_⟩, fun _ => ⟨rfl, rfl, rfl⟩⟩
  all_goals nofun

-- The step in which the connection logs a request.
def Logs (i : Tid) (t : Step) : Prop := ∃ req, t.label = .call i ⟨.log_request req, ()⟩

-- What the log tells last of a connection has happened in the run, and nothing of the kind since.
theorem asked_of_run {steps : List Step} {cfg : Threads.Config Tid World Resp}
    (run : Run ext uuid addr phone steps cfg) {i : Tid} {req : Value}
    (h : cfg.world.requests.find? (·.1 = i) = some (i, req)) :
    ∃ first t between, steps = first ++ t :: between ∧
      t.label = .call i ⟨.log_request req, ()⟩ ∧ ∀ u ∈ between, ¬ Logs i u := by
  induction run with
  | nil => cases h
  | @snoc steps cfg cfg' label run step ih =>
      -- a step that logs nothing of the connection leaves what was logged last of it
      have hlater (hsame : cfg'.world.requests.find? (·.1 = i) = cfg.world.requests.find? (·.1 = i))
          (hquiet : ¬ Logs i ⟨cfg, label, cfg'⟩) : ∃ first t between,
          steps ++ [⟨cfg, label, cfg'⟩] = first ++ t :: between ∧
            t.label = .call i ⟨.log_request req, ()⟩ ∧ ∀ u ∈ between, ¬ Logs i u := by
        obtain ⟨first, t, between, rfl, hlabel, hnone⟩ := ih (hsame ▸ h)
        refine ⟨first, t, between ++ [⟨cfg, label, cfg'⟩], by simp, hlabel, fun u hu => ?_⟩
        rcases List.mem_append.mp hu with hu | hu
        · exact hnone u hu
        · obtain rfl := List.mem_singleton.mp hu
          exact hquiet
      cases step with
      | @call _ j c k r w is_next heffect =>
          have heffect : effect uuid j cfg.world c r w := heffect
          by_cases hc : ∃ req', c = .log_request req'
          · obtain ⟨req', rfl⟩ := hc
            obtain rfl := heffect
            by_cases hj : j = i
            · subst hj
              rw [List.find?_cons_of_pos (by simp)] at h
              cases h
              exact ⟨steps, _, [], rfl, rfl, List.forall_mem_nil _⟩
            · refine hlater (List.find?_cons_of_neg (by simpa using hj)) ?_
              rintro ⟨req'', hlabel⟩
              cases hlabel
              exact hj rfl
          · have hsame := effect_requests (fun req' h => hc ⟨req', h⟩) heffect
            refine hlater (congrArg (List.find? (·.1 = i)) hsame) ?_
            rintro ⟨req'', hlabel⟩
            cases hlabel
            exact hc ⟨req'', rfl⟩
      | @start _ j p w is_done heffect =>
          have hsame : w.requests = cfg.world.requests := by
            cases j with
            | conn n =>
                obtain ⟨fuel, -, rfl⟩ := heffect
                rfl
            | http n =>
                obtain ⟨req, -, rfl⟩ := heffect
                rfl
            | job n =>
                obtain ⟨job, -, -, rfl⟩ := heffect
                rfl
          refine hlater (congrArg (List.find? (·.1 = i)) hsame) ?_
          rintro ⟨req'', hlabel⟩
          cases hlabel

-- A profile goes only by a removal with its uuid.
theorem removes_of_lost {label : Threads.Label Tid Resp} {cfg cfg' : Threads.Config Tid World Resp}
    (hstep : Threads.Step (process ext uuid addr) label cfg cfg') {profile : Octets}
    (hbefore : profile ∈ cfg.world.phone) (hafter : profile ∉ cfg'.world.phone) :
    ∃ i r, label = .call i ⟨.remove (uuid profile), r⟩ := by
  cases hstep with
  | @call _ i c k r w is_next heffect =>
      have heffect : effect uuid i cfg.world c r w := heffect
      cases c with
      | remove u =>
          obtain ⟨left, hremoved, rfl⟩ := heffect
          by_cases hu : uuid profile = u
          · subst hu
            exact ⟨i, r, rfl⟩
          · exact absurd (hremoved.others profile hbefore hu) hafter
      | install blob =>
          obtain ⟨more, hinstalled, rfl⟩ := heffect
          exact absurd (hinstalled.kept profile hbefore) hafter
      | copy_all =>
          cases r with
          | ok raw =>
              obtain ⟨-, rfl⟩ := heffect
              exact absurd hbefore hafter
          | error e =>
              obtain rfl := heffect
              exact absurd hbefore hafter
      | log_request req =>
          obtain rfl := heffect
          exact absurd hbefore hafter
      | _ => exact absurd ((effect_phone rfl heffect).1 ▸ hbefore) hafter
  | @start _ i p w is_done heffect =>
      cases i with
      | conn n =>
          obtain ⟨fuel, -, rfl⟩ := heffect
          exact absurd hbefore hafter
      | http n =>
          obtain ⟨req, -, rfl⟩ := heffect
          exact absurd hbefore hafter
      | job n =>
          obtain ⟨job, -, -, rfl⟩ := heffect
          exact absurd hbefore hafter

-- The request names this bundle, in whatever case of its letters.
def NamesBundle (ext : Ext) (req : Value) (bundle : Str) : Prop :=
  identifier req = "RemoveProvisioningProfilesRequest".toList ∧
    ∃ values name, (req.get "bundleIdentifiers").as_array = some values ∧ .string name ∈ values ∧
      ext.to_lowercase name = ext.to_lowercase bundle

theorem AsksRemoval.names_bundle {req : Value} {p : Profile.PhoneProfile} (h : AsksRemoval ext req p) :
    ∃ bundle, p.bundle_id = some bundle ∧ NamesBundle ext req bundle := by
  obtain ⟨hid, hmatch⟩ := h
  obtain ⟨bundle, hbundle, hwanted⟩ := (Option.any_eq_true _ _).mp hmatch
  refine ⟨bundle, hbundle, hid, ?_⟩
  have hmem : ext.to_lowercase bundle ∈ AltServer.wanted_bundles ext req := of_decide_eq_true hwanted
  unfold AltServer.wanted_bundles at hmem
  cases harray : (req.get "bundleIdentifiers").as_array with
  | none => simp [harray] at hmem
  | some values =>
      rw [harray] at hmem
      obtain ⟨v, hv, hname⟩ := List.mem_filterMap.mp hmem
      obtain ⟨name, hstr, hlower⟩ := Option.map_eq_some_iff.mp hname
      cases v with
      | string text =>
          obtain rfl := Option.some.inj hstr
          exact ⟨values, text, rfl, hv, hlower⟩
      | _ => cases hstr

-- What a run takes from the phone it was asked to take: when a profile that was there goes, the last
-- request of the same connection was to remove its bundle.
theorem lost_profile_was_asked (huuid : ∀ raw p, ext.parse raw = some (some p) → uuid raw = p.uuid)
    (hdistinct : Distinct uuid phone) {steps : List Step} {cfg : Threads.Config Tid World Resp}
    (run : Run ext uuid addr phone steps cfg) {profile : Octets} (hbefore : profile ∈ phone)
    (hafter : profile ∉ cfg.world.phone) :
    ∃ p bundle req i r first asked between lost rest,
      ext.parse profile = some (some p) ∧ p.bundle_id = some bundle ∧ NamesBundle ext req bundle ∧
      steps = first ++ asked :: between ++ lost :: rest ∧
      asked.label = .call i ⟨.log_request req, ()⟩ ∧ (∀ t ∈ between, ¬ Logs i t) ∧
      lost.label = .call i ⟨.remove p.uuid, r⟩ ∧
      profile ∈ lost.before.world.phone ∧ profile ∉ lost.after.world.phone := by
  rcases run.escape (fun w => profile ∈ w.phone) hbefore with ⟨-, hpresent⟩ | hescape
  · exact absurd hpresent hafter
  obtain ⟨first, lost, rest, rfl, hwithin, hrun, hstep, hpresent, hlost⟩ := hescape
  -- up to the step that loses the profile the threads know what they saw of it
  obtain ⟨q, ⟨-, -, hwatched⟩, hthreads⟩ := ((watched_modular profile).run
    (watched_initial hdistinct hbefore) hwithin fun t _ => by cases t.label <;> trivial).1
  obtain ⟨i, r, hlabel⟩ := removes_of_lost hstep hpresent hlost
  obtain ⟨before, label, after⟩ := lost
  obtain rfl : label = .call i ⟨.remove (uuid profile), r⟩ := hlabel
  have hstep : Threads.Step (process ext uuid addr) (.call i ⟨.remove (uuid profile), r⟩) before after :=
    hstep
  obtain ⟨req, raw, p, hrequest, hraw, hparse, hpuuid, hasks⟩ := hstep.allows (hthreads i)
  obtain rfl := hwatched.seen i raw hraw ((huuid raw p hparse).trans hpuuid)
  obtain ⟨bundle, hbundle, hnames⟩ := hasks.names_bundle
  obtain ⟨earlier, asked, between, rfl, haskedlabel, hnone⟩ :=
    asked_of_run hrun (hwatched.asked i req hrequest)
  refine ⟨p, bundle, req, i, r, earlier, asked, between, _, rest, hparse, hbundle, hnames, rfl,
    haskedlabel, hnone, ?_, hpresent, hlost⟩
  rw [hpuuid]

-- The only profile on the phone is removed by its bundle, written in capitals.
theorem lost_profile_was_asked_com_a :
    ∃ steps cfg, Run sample (uuid_of sample) none [sample_profile] steps cfg ∧
      sample_profile ∉ cfg.world.phone ∧
      ∃ p bundle req, sample.parse sample_profile = some (some p) ∧ p.bundle_id = some bundle ∧
        NamesBundle sample req bundle := by
  have hplay : ((player sample (uuid_of sample) none fun _ => reached (Utf8.encode remove_profiles_text)).play
      (starts (.conn 0) (.connection 1) 22) (initial [sample_profile])).any
      (fun cfg => cfg.world.phone = []) = true := by
    decide +kernel
  obtain ⟨steps, cfg, run, hphone⟩ := exists_run hplay
  have hphone : cfg.world.phone = [] := of_decide_eq_true hphone
  have hlost : sample_profile ∉ cfg.world.phone := by
    rw [hphone]
    exact List.not_mem_nil
  obtain ⟨p, bundle, req, _, _, _, _, _, _, _, hparse, hbundle, hnames, -⟩ :=
    lost_profile_was_asked uuid_of_eq (by decide) run (by simp) hlost
  exact ⟨steps, cfg, run, hlost, p, bundle, req, hparse, hbundle, hnames⟩

end Loss

end AltKeeper
