import AltKeeper.Phone.Attempts
import AltKeeper.Saved
import Mathlib.Logic.Function.Basic

-- A profile leaves the phone only when its copy can bring it back.
namespace AltKeeper.Saved

open Profile (PhoneProfile)

section Outside

variable (ext : Ext)

-- The UUID of a profile, without its letter case.
def lowercase_uuid (raw : Octets) : Option Str := ext.parse raw |>.join.map (·.uuid.to_ascii_lowercase)

-- The saved files and the phone, with the files that were read, each with what was found, and the
-- profiles that the phone was asked to install, each with its answer.
structure Kept where
  files : Str → Option Octets
  profiles : List Octets
  reads : List (Str × Option Octets) := []
  installs : List (Octets × Bool) := []

-- The copy of the profile with this UUID is the profile.
def Kept.Copied (s : Kept) (uuid : Str) : Prop :=
  ∃ raw ∈ s.profiles, ∃ p, ext.parse raw = some (some p) ∧ p.uuid = uuid ∧
    s.files (saved_path uuid) = some raw

def Kept.without (s : Kept) (uuid : Str) : List Octets :=
  s.profiles.filter fun raw => lowercase_uuid ext raw ≠ some uuid.to_ascii_lowercase

-- A call that fails may have done its work, and a write that fails may leave anything. Nobody
-- else writes the files, and the phone is asked to remove only what has a copy.
def keeping : Prog.Protocol Resp Kept where
  allows s c :=
    match c with
    | .remove uuid => s.Copied ext uuid
    | _ => True
  step s c r s' :=
    match c, r with
    | .write_file path bytes, r => ∃ content,
        s' = { s with files := Function.update s.files path content } ∧ (r = .ok () → content = some bytes)
    | .read_file path, r => (∀ bytes, r = .ok bytes → s.files path = some bytes) ∧
        s' = { s with reads := s.reads ++ [(path, r.toOption)] }
    | .copy_all, r => (∀ raw, r = .ok raw → raw = s.profiles) ∧ s' = s
    | .remove uuid, r => ∃ profiles, s' = { s with profiles } ∧
        (profiles = s.without ext uuid ∨ profiles = s.profiles ∧ r ≠ .ok ())
    | .install blob, r => ∃ profiles, s' = { s with profiles, installs := s.installs ++ [(blob, r.isOk)] } ∧
        (profiles = s.profiles ++ [blob] ∨ profiles = s.profiles ∧ r ≠ .ok ())
    | _, _ => s' = s

-- The phone has no two profiles with one UUID.
def Kept.Distinct (s : Kept) : Prop := (s.profiles.filterMap (lowercase_uuid ext)).Nodup

end Outside

section Lists

variable {ext : Ext}

theorem lowercase_uuid_parse {raw : Octets} {p : PhoneProfile} (h : ext.parse raw = some (some p)) :
    lowercase_uuid ext raw = some p.uuid.to_ascii_lowercase := by
  rw [lowercase_uuid, h]
  rfl

-- What is removed and put back is the same set of profiles.
theorem without_append_perm {uuid : Str} {raw : Octets} {s : Kept} (hdistinct : s.Distinct ext)
    (hraw : raw ∈ s.profiles) (huuid : lowercase_uuid ext raw = some uuid.to_ascii_lowercase) :
    (s.without ext uuid ++ [raw]).Perm s.profiles := by
  obtain ⟨before, after, hsplit⟩ := List.append_of_mem hraw
  have hothers : ∀ other ∈ before ++ after, lowercase_uuid ext other ≠ some uuid.to_ascii_lowercase := by
    intro other hother hsame
    rw [Kept.Distinct, hsplit, List.filterMap_append, List.filterMap_cons_some huuid,
      List.nodup_middle, ← List.filterMap_append, List.nodup_cons] at hdistinct
    exact hdistinct.1 (List.mem_filterMap.mpr ⟨other, hother, hsame⟩)
  have hwithout : s.without ext uuid = before ++ after := by
    have hgone : (raw :: after).filter (fun raw => lowercase_uuid ext raw ≠ some uuid.to_ascii_lowercase) =
        after.filter fun raw => lowercase_uuid ext raw ≠ some uuid.to_ascii_lowercase := by
      rw [List.filter_cons_of_neg (by simpa using huuid)]
    rw [Kept.without, hsplit, List.filter_append, hgone, ← List.filter_append, List.filter_eq_self]
    intro other hother
    simpa using hothers other hother
  rw [hwithout, hsplit, List.append_assoc]
  apply List.Perm.append_left
  exact List.perm_append_comm

end Lists

section Removal

variable {ext : Ext}

-- The first profile with the UUID is one of those that were read.
theorem find_profile_some {uuid : Str} {raws : List Octets} {found : Octets} {p : PhoneProfile}
    (h : find_profile ext uuid raws = some (some (found, p))) :
    found ∈ raws ∧ ext.parse found = some (some p) ∧
      p.uuid.to_ascii_lowercase = uuid.to_ascii_lowercase := by
  induction raws with
  | nil => cases h
  | cons raw raws ih =>
      rw [find_profile] at h
      cases hparse : ext.parse raw with
      | none =>
          rw [hparse] at h
          cases h
      | some parsed =>
          rw [hparse] at h
          have hlater : find_profile ext uuid raws = some (some (found, p)) → found ∈ raw :: raws ∧
              ext.parse found = some (some p) ∧
                p.uuid.to_ascii_lowercase = uuid.to_ascii_lowercase := by
            intro hrest
            obtain ⟨hmem, hfound⟩ := ih hrest
            exact ⟨List.mem_cons_of_mem _ hmem, hfound⟩
          cases parsed with
          | none => exact hlater h
          | some q =>
              by_cases hsame : q.uuid.to_ascii_lowercase = uuid.to_ascii_lowercase
              · simp only [Option.bind_eq_bind, Option.bind_some, hsame, if_true, Option.pure_def,
                  Option.some.injEq, Prod.mk.injEq] at h
                obtain ⟨rfl, rfl⟩ := h
                exact ⟨List.mem_cons_self, hparse, hsame⟩
              · simp only [Option.bind_eq_bind, Option.bind_some, hsame, if_false] at h
                exact hlater h

-- What the search of the phone calls leaves the copies and the profiles alone.
theorem open_phone_keeps (addr : Option SocketAddr) (s : Kept) :
    (open_phone ext print addr).wp (keeping ext) (fun _ s' => s' = s) s := by
  have hprint : ∀ line, (print line).Uses fun c => c.finds = true ∨ ∃ line, c = .println line :=
    fun line => ⟨.inr ⟨line, rfl⟩, fun _ => trivial⟩
  have huses : (open_phone ext print addr).Uses fun c => c.finds = true ∨ ∃ line, c = .println line := by
    apply Prog.Uses.bind (Phone.connect_auto_uses (fun _ => .inl) hprint addr)
    intro r
    cases r with
    | error e => trivial
    | ok found =>
        unfold say_found
        dsimp only
        split
        · exact hprint _
        · trivial
  apply Prog.wp_of_uses huses
  rintro c (hc | ⟨line, rfl⟩)
  · cases c <;> first | exact ⟨trivial, fun _ _ h => h⟩ | cases hc
  · exact ⟨trivial, fun _ _ h => h⟩

theorem print_keeps (line : Str) (s : Kept) :
    (print line).wp (keeping ext) (fun _ s' => s' = s) s := ⟨trivial, fun _ _ h => h⟩

theorem save_copy_wp (path : Str) (found : Octets) (s : Kept) :
    (save_copy path found).wp (keeping ext)
      (fun r s' => s'.profiles = s.profiles ∧ (r = .ok () → s'.files path = some found)) s := by
  refine ⟨trivial, ?_⟩
  rintro (e | ⟨⟨⟩⟩) s' rfl
  · exact ⟨rfl, by simp⟩
  refine ⟨trivial, ?_⟩
  rintro (e | ⟨⟨⟩⟩) s' rfl
  · exact ⟨rfl, by simp⟩
  refine ⟨trivial, ?_⟩
  rintro (e | ⟨⟨⟩⟩) s'' ⟨content, rfl, hcontent⟩
  · exact ⟨rfl, by simp⟩
  refine ⟨trivial, ?_⟩
  rintro (e | ⟨⟨⟩⟩) s''' rfl
  · exact ⟨rfl, by simp⟩
  refine ⟨trivial, ?_⟩
  rintro (e | bytes) s''' ⟨hread, rfl⟩
  · exact ⟨rfl, by simp⟩
  dsimp only [Prog.bind]
  by_cases hsame : bytes = found
  · subst hsame
    rw [if_neg (not_not.mpr rfl)]
    exact ⟨rfl, fun _ => hread bytes rfl⟩
  · rw [if_pos hsame]
    exact ⟨rfl, by simp⟩

-- What asking for a removal leaves: nothing was removed, or the copy is there.
def Removed (ext : Ext) (found : Octets) (p : PhoneProfile) (s : Kept) (ok : Bool) (s' : Kept) : Prop :=
  s'.profiles = s.profiles ∧ ok = false ∨
    s'.profiles = s.without ext p.uuid ∧ s'.files (saved_path p.uuid) = some found

theorem save_and_remove_wp {found : Octets} {p : PhoneProfile} {s : Kept} (hmem : found ∈ s.profiles)
    (hparse : ext.parse found = some (some p)) :
    (save_and_remove found p).wp (keeping ext) (fun r s' => Removed ext found p s r.isOk s') s := by
  apply Prog.wp_seq (save_copy_wp (saved_path p.uuid) found s)
  rintro (e | ⟨⟨⟩⟩) s' ⟨hprofiles, hcopy⟩
  · exact .inl ⟨hprofiles, rfl⟩
  have hcopied : s'.files (saved_path p.uuid) = some found := hcopy rfl
  apply Prog.wp_seq (print_keeps _ s')
  rintro _ s'' rfl
  have hmem' : found ∈ s''.profiles := hprofiles ▸ hmem
  refine ⟨⟨found, hmem', p, hparse, rfl, hcopied⟩, ?_⟩
  have hwithout : s''.without ext p.uuid = s.without ext p.uuid := by
    rw [Kept.without, Kept.without, hprofiles]
  rintro (e | ⟨⟨⟩⟩) s' ⟨profiles, rfl, hremoved⟩
  · rcases hremoved with rfl | ⟨rfl, -⟩
    · exact .inr ⟨hwithout, hcopied⟩
    · exact .inl ⟨hprofiles, rfl⟩
  · apply Prog.wp_seq (print_keeps _ _)
    rintro _ s' rfl
    rcases hremoved with rfl | ⟨-, hfailed⟩
    · exact .inr ⟨hwithout, hcopied⟩
    · exact absurd rfl hfailed

-- What the command leaves: the phone as it was, or a copy of the profile that is gone.
def Outcome (ext : Ext) (uuid : Option Str) (s : Kept) (r : Except Fail Unit) (s' : Kept) : Prop :=
  s'.profiles = s.profiles ∧ r.isOk = false ∨ ∃ found ∈ s.profiles, ∃ p,
    ext.parse found = some (some p) ∧ uuid.map Str.to_ascii_lowercase = some p.uuid.to_ascii_lowercase ∧
      s'.profiles = s.without ext p.uuid ∧ s'.files (saved_path p.uuid) = some found

theorem remove_on_phone_wp (uuid : Str) (s : Kept) :
    (remove_on_phone ext uuid).wp (keeping ext) (Outcome ext (some uuid) s) s := by
  refine ⟨trivial, ?_⟩
  rintro (e | raws) s' ⟨hraws, rfl⟩
  · exact .inl ⟨rfl, rfl⟩
  obtain rfl : raws = s'.profiles := hraws raws rfl
  dsimp only [Prog.bind]
  cases hfind : find_profile ext uuid s'.profiles with
  | none => exact .inl ⟨rfl, rfl⟩
  | some result =>
      cases result with
      | none => exact .inl ⟨rfl, rfl⟩
      | some pair =>
          obtain ⟨found, p⟩ := pair
          obtain ⟨hmem, hparse, hsame⟩ := find_profile_some hfind
          apply Prog.wp_seq (save_and_remove_wp hmem hparse)
          intro r s'' hremoved
          have hok : (r.mapError Fail.err).isOk = r.isOk := by cases r <;> rfl
          rcases hremoved with ⟨hprofiles, hfailed⟩ | ⟨hprofiles, hcopy⟩
          · exact .inl ⟨hprofiles, hok.trans hfailed⟩
          · exact .inr ⟨found, hmem, p, hparse, by rw [hsame]; rfl, hprofiles, hcopy⟩

theorem cmd_profile_remove_wp (addr : Option SocketAddr) (uuid : Option Str) (s : Kept) :
    (cmd_profile_remove ext addr uuid).wp (keeping ext) (Outcome ext uuid s) s := by
  cases uuid with
  | none => exact .inl ⟨rfl, rfl⟩
  | some uuid =>
      apply Prog.wp_seq (open_phone_keeps addr s)
      rintro (e | ⟨⟨⟩⟩) s' rfl
      · exact .inl ⟨rfl, rfl⟩
      apply Prog.wp_seq (remove_on_phone_wp uuid s')
      intro r s'' houtcome
      refine ⟨trivial, ?_⟩
      rintro _ t rfl
      exact houtcome

end Removal

section Restoring

variable {ext : Ext}

-- The search of the phone, and the copies.
abbrev terminal (ext : Ext) : Prog.Protocol Resp (Phone.Outside × Kept) :=
  Phone.outside.prod (keeping ext)

-- How the restoring of a copy ends: the file is read, the phone is searched for, and it is asked to
-- install the copy and nothing else; once it does, it has the profiles that it had.
inductive Restored (ext : Ext) (addr : Option SocketAddr) (path : Str) (found : Octets)
    (profiles : List Octets) (o : Phone.Outside) :
    Except Fail Unit → Phone.Outside × Kept → Prop
  | unread {e s} (read : s.2.reads = [(path, none)]) (idle : s.1 = o) (unasked : s.2.installs = []) :
      Restored ext addr path found profiles o (.error (.err e)) s
  | unreached {e s} (read : s.2.reads = [(path, some found)])
      (lost : Phone.Sought ext addr o (.error e) s.1) (unasked : s.2.installs = []) :
      Restored ext addr path found profiles o (.error (.err e)) s
  | refused {e s} (read : s.2.reads = [(path, some found)])
      (reached : ∃ phone, Phone.Sought ext addr o (.ok phone) s.1)
      (asked : s.2.installs = [(found, false)]) :
      Restored ext addr path found profiles o (.error (.err e)) s
  | whole {s} (read : s.2.reads = [(path, some found)])
      (reached : ∃ phone, Phone.Sought ext addr o (.ok phone) s.1)
      (asked : s.2.installs = [(found, true)]) (same : s.2.profiles.Perm profiles) :
      Restored ext addr path found profiles o (.ok ()) s

theorem print_finds (line : Str) : (print line).Uses fun c => c.finds = false := ⟨rfl, fun _ => trivial⟩

-- What opening the phone leaves of the search.
def Opened (ext : Ext) (addr : Option SocketAddr) (o : Phone.Outside) (r : Except Str Unit)
    (o' : Phone.Outside) : Prop :=
  match r with
  | .error e => Phone.Sought ext addr o (.error e) o'
  | .ok () => ∃ phone, Phone.Sought ext addr o (.ok phone) o'

theorem open_phone_wp (addr : Option SocketAddr) (pairing : Bool) (file : Option Str) (s : Kept) :
    (open_phone ext print addr).wp (terminal ext)
      (fun r s' => Opened ext addr { pairing, file } r s'.1 ∧ s'.2 = s) ({ pairing, file }, s) := by
  have hopened : (open_phone ext print addr).wp Phone.outside (Opened ext addr { pairing, file })
      { pairing, file } := by
    apply Prog.wp_seq (Phone.connect_auto_sought print_finds addr pairing file)
    intro r s' hsought
    cases r with
    | error e => exact hsought
    | ok found =>
        have hsay : (say_found ext print addr found).wp Phone.outside (fun _ t => t = s') s' := by
          unfold say_found
          by_cases hother : addr ≠ some found
          · rw [if_pos hother]
            exact Phone.say_wp print_finds _ s'
          · rw [if_neg hother]
            rfl
        apply Prog.wp_seq hsay
        rintro _ t rfl
        exact ⟨found, hsought⟩
  exact Prog.wp_prod hopened (open_phone_keeps addr s)

theorem restore_on_phone_wp (addr : Option SocketAddr) {path : Str} (found : Octets) (p : PhoneProfile)
    (pairing : Bool) (file : Option Str) {s : Kept} (hread : s.reads = [(path, some found)])
    (hnone : s.installs = []) :
    (restore_on_phone ext addr found p).wp (terminal ext)
      (Restored ext addr path found (s.profiles ++ [found]) { pairing, file })
      ({ pairing, file }, s) := by
  apply Prog.wp_seq (open_phone_wp addr pairing file s)
  rintro (e | ⟨⟨⟩⟩) ⟨o, s'⟩ ⟨hopened, hsame⟩
  · obtain rfl : s' = s := hsame
    exact .unreached hread hopened hnone
  obtain rfl : s' = s := hsame
  have hinstall : (install_saved found p).wp (terminal ext)
      (Restored ext addr path found (s'.profiles ++ [found]) { pairing, file }) (o, s') := by
    refine ⟨⟨trivial, trivial⟩, ?_⟩
    rintro (e | ⟨⟨⟩⟩) ⟨o', s''⟩ ⟨hsearch, profiles, hnext, hprofiles⟩
    · obtain rfl : o' = o := hsearch
      obtain rfl := hnext
      exact .refused hread hopened (by rw [hnone]; rfl)
    · obtain rfl : o' = o := hsearch
      obtain rfl := hnext
      refine ⟨⟨trivial, trivial⟩, ?_⟩
      rintro _ ⟨o'', s''⟩ ⟨hsearch, hnext⟩
      obtain rfl : o'' = o' := hsearch
      obtain rfl := hnext
      have hall : profiles = s'.profiles ++ [found] := by
        rcases hprofiles with hall | ⟨-, hfailed⟩
        · exact hall
        · exact absurd rfl hfailed
      refine .whole hread hopened (by rw [hnone]; rfl) ?_
      rw [hall]
  apply Prog.wp_seq hinstall
  intro r t hrestored
  refine ⟨⟨trivial, trivial⟩, ?_⟩
  rintro _ t' ⟨hfirst, hsecond⟩
  obtain rfl : t' = t := Prod.ext hfirst hsecond
  exact hrestored

theorem cmd_profile_restore_wp (addr : Option SocketAddr) {path : Str} {found : Octets} {p : PhoneProfile}
    (hparse : ext.parse found = some (some p)) (pairing : Bool) (file : Option Str) {s : Kept}
    (hcopy : s.files path = some found) (hread : s.reads = []) (hnone : s.installs = []) :
    (cmd_profile_restore ext addr (some path)).wp (terminal ext)
      (Restored ext addr path found (s.profiles ++ [found]) { pairing, file })
      ({ pairing, file }, s) := by
  refine ⟨⟨trivial, trivial⟩, ?_⟩
  rintro (e | bytes) ⟨o, s'⟩ ⟨rfl, hbytes, rfl⟩
  · exact .unread (by rw [hread]; rfl) rfl hnone
  obtain rfl : found = bytes := Option.some.inj (hcopy.symm.trans (hbytes bytes rfl))
  dsimp only [Prog.bind]
  rw [hparse]
  exact restore_on_phone_wp addr found p pairing file (by rw [hread]; rfl) hnone

end Restoring

section Commands

variable {ext : Ext}

-- The profile asked for is removed, and its copy brings it back whenever the phone takes it.
def Restorable (ext : Ext) (uuid : Option Str) (s s' : Kept) : Prop :=
  ∃ found ∈ s.profiles, ∃ p, ext.parse found = some (some p) ∧
    uuid.map Str.to_ascii_lowercase = some p.uuid.to_ascii_lowercase ∧
    s'.profiles = s.without ext p.uuid ∧ s'.files (saved_path p.uuid) = some found ∧
    ∀ addr pairing file,
      (cmd_profile_restore ext addr (some (saved_path p.uuid))).wp (terminal ext)
        (Restored ext addr (saved_path p.uuid) found s.profiles { pairing, file })
        ({ pairing, file }, { files := s'.files, profiles := s'.profiles })

theorem Restored.mono {addr : Option SocketAddr} {path : Str} {found : Octets}
    {profiles profiles' : List Octets} {o : Phone.Outside} {r : Except Fail Unit}
    {s : Phone.Outside × Kept} (h : Restored ext addr path found profiles o r s)
    (hperm : profiles.Perm profiles') : Restored ext addr path found profiles' o r s := by
  cases h with
  | unread read idle unasked => exact .unread read idle unasked
  | unreached read lost unasked => exact .unreached read lost unasked
  | refused read reached asked => exact .refused read reached asked
  | whole read reached asked same => exact .whole read reached asked (same.trans hperm)

-- The phone is asked to remove only a profile whose copy was read back; every profile stays on
-- the phone or in its copy, and after a removal the copy can be restored.
theorem profile_remove_restore (addr : Option SocketAddr) (uuid : Option Str) {s : Kept}
    (hdistinct : s.Distinct ext) :
    (cmd_profile_remove ext addr uuid).wp (keeping ext) (fun r s' =>
      (∀ raw ∈ s.profiles, raw ∈ s'.profiles ∨
        ∃ p, ext.parse raw = some (some p) ∧ s'.files (saved_path p.uuid) = some raw) ∧
      (r = .ok () → Restorable ext uuid s s')) s := by
  apply Prog.wp_mono (cmd_profile_remove_wp addr uuid s)
  rintro r s' (⟨hprofiles, hfailed⟩ | ⟨found, hmem, p, hparse, huuid, hprofiles, hcopy⟩)
  · refine ⟨fun raw hraw => .inl (hprofiles ▸ hraw), ?_⟩
    rintro rfl
    cases hfailed
  · have hperm := without_append_perm hdistinct hmem (lowercase_uuid_parse hparse)
    rw [← hprofiles] at hperm
    refine ⟨fun raw hraw => ?_, fun _ => ⟨found, hmem, p, hparse, huuid, hprofiles, hcopy,
      fun addr pairing file => ?_⟩⟩
    · rcases List.mem_append.mp (hperm.mem_iff.mpr hraw) with hkept | hgone
      · exact .inl hkept
      · rw [List.mem_singleton.mp hgone]
        exact .inr ⟨p, hparse, hcopy⟩
    · have hback := cmd_profile_restore_wp addr hparse pairing file
        (s := { files := s'.files, profiles := s'.profiles }) hcopy rfl rfl
      exact Prog.wp_mono hback fun r t hrestored => hrestored.mono hperm

theorem profile_remove_restore_sample : (cmd_profile_remove sample none (some "u1".toList)).wp (keeping sample)
    (fun r s' => (∀ raw ∈ [sample_profile], raw ∈ s'.profiles ∨
        ∃ p, sample.parse raw = some (some p) ∧ s'.files (saved_path p.uuid) = some raw) ∧
      (r = .ok () → Restorable sample (some "u1".toList)
        { files := fun _ => none, profiles := [sample_profile] } s'))
    { files := fun _ => none, profiles := [sample_profile] } := by
  have hdistinct : ([sample_profile].filterMap (lowercase_uuid sample)).Nodup := by decide +kernel
  exact profile_remove_restore none (some "u1".toList) hdistinct

-- A phone at the address remembered, and files that can be written.
def desk (s : Kept) : (c : Cmd) → Resp c × Kept
  | .pairing_exists => (true, s)
  | .read_last_addr => (some sample_addr_text, s)
  | .connect _ => (.linked, s)
  | .copy_all => (.ok s.profiles, s)
  | .create_dir_all _ => (.ok (), s)
  | .set_permissions _ _ => (.ok (), s)
  | .write_file path bytes => (.ok (), { s with files := Function.update s.files path (some bytes) })
  | .read_file path => ((s.files path).elim (.error []) .ok, s)
  | .remove uuid => (.ok (), { s with profiles := s.without sample uuid })
  | c => (silent c, s)

example : ((cmd_profile_remove sample none (some "u1".toList)).exec desk
    { files := fun _ => none, profiles := [sample_profile] }).2.isOk = true := by decide +kernel

end Commands

end AltKeeper.Saved
