import AltKeeper.Account
import AltKeeper.Renew.Calls

-- What a save leaves in the account's file, wherever it fails.
namespace AltKeeper.Apple

section Disk

-- The account's file, and how far the last write of it came if it stopped.
structure Disk where
  file : Option Octets
  opened : Bool := false
  stopped : Option Nat := none

def Disk.account (ext : Ext) (disk : Disk) : Option Account := do
  let data ← disk.file
  let text ← Utf8.decode? data
  (ext.account text).toOption

-- Nobody else writes the file. An opening that fails leaves it as it is; a write that fails has
-- written some of its bytes, but not the last.
def files : Prog.Protocol Resp Disk where
  allows s c :=
    match c with
    | .save_account _ => False
    | .open_truncate path _ => path = ACCOUNT_FILE
    | .write_opened _ => s.opened = true
    | .write_file path _ => path ≠ ACCOUNT_FILE
    | _ => True
  step s c r s' :=
    match c, r with
    | .open_truncate _ _, .ok () => s' = { file := some [], opened := true, stopped := none }
    | .write_opened bytes, .ok () => s' = { s with file := s.file.map (· ++ bytes) }
    | .write_opened bytes, .error _ => ∃ n < bytes.length,
        s' = { s with file := s.file.map (· ++ bytes.take n), stopped := some n }
    | .read_account, r => r = s.file.bind Utf8.decode? ∧ s' = s
    | _, _ => s' = s

end Disk

section Stored

variable (ext : Ext) (to_vec_pretty : Account → Except Str Octets)

-- What a save is about: an account that can be read, or the first bytes of one.
inductive Stored where
  | holds (acc : Account)
  | stopped (data : Octets) (n : Nat)

def Stored.Read : Stored → Option Str → Prop
  | .holds acc, r => ∃ raw, r = some raw ∧ ext.account raw = .ok acc
  | .stopped data n, r => r = Utf8.decode? (data.take n)

-- A save that fails leaves what was stored, stores the new account, or stops on the way.
def storing : Prog.Protocol Resp Stored where
  allows _ c :=
    match c with
    | .open_truncate _ _ => False
    | .write_opened _ => False
    | .write_file path _ => path ≠ ACCOUNT_FILE
    | _ => True
  step s c r s' :=
    match c, r with
    | .save_account acc, .ok () => s' = .holds acc
    | .save_account acc, .error _ => s' = s ∨ s' = .holds acc ∨
        ∃ data n, to_vec_pretty acc = .ok data ∧ n < data.length ∧ s' = .stopped data n
    | .read_account, r => s.Read ext r ∧ s' = s
    | _, _ => s' = s

def Stored.On : Stored → Disk → Prop
  | .holds acc, disk => disk.stopped = none ∧ disk.account ext = some acc
  | .stopped data n, disk => disk.stopped = some n ∧ disk.file = some (data.take n)

-- The program of each command: a save is the one of the source.
def carry_out : (c : Cmd) → Act (Resp c)
  | .save_account acc => save_account to_vec_pretty acc
  | c => ask c

end Stored

section Simulation

variable {ext : Ext} {to_vec_pretty : Account → Except Str Octets}
  (hround : ∀ acc data, to_vec_pretty acc = .ok data →
    ∃ text, Utf8.decode? data = some text ∧ ext.account text = .ok acc)

theorem account_eq_some {disk : Disk} {acc : Account} : disk.account ext = some acc ↔
    ∃ data text, disk.file = some data ∧ Utf8.decode? data = some text ∧ ext.account text = .ok acc := by
  constructor
  · intro h
    obtain ⟨data, hfile, h⟩ := Option.bind_eq_some_iff.mp h
    obtain ⟨text, htext, h⟩ := Option.bind_eq_some_iff.mp h
    refine ⟨data, text, hfile, htext, ?_⟩
    cases hacc : ext.account text with
    | error e =>
        rw [hacc] at h
        cases h
    | ok acc' =>
        rw [hacc] at h
        rw [Option.some.inj h]
  · rintro ⟨data, text, hfile, htext, hacc⟩
    rw [Disk.account, hfile, Option.bind_eq_bind, Option.bind_some, htext, Option.bind_eq_bind,
      Option.bind_some, hacc]
    rfl

theorem Stored.On.read {stored : Stored} {disk : Disk} (h : stored.On ext disk) :
    stored.Read ext (disk.file.bind Utf8.decode?) := by
  cases stored with
  | holds acc =>
      obtain ⟨data, text, hfile, htext, hacc⟩ := account_eq_some.mp h.2
      refine ⟨text, ?_, hacc⟩
      rw [hfile, Option.bind_some, htext]
  | stopped data n =>
      rw [Stored.Read, h.2]
      rfl

include hround

theorem save_account_wp (acc : Account) {stored : Stored} {disk : Disk} (h : stored.On ext disk) :
    (save_account to_vec_pretty acc).wp files (fun r disk' => ∃ stored',
      (storing ext to_vec_pretty).step stored (.save_account acc) r stored' ∧
        stored'.On ext disk') disk := by
  unfold save_account
  cases hdata : to_vec_pretty acc with
  | error e => exact ⟨stored, .inl rfl, h⟩
  | ok data =>
      obtain ⟨text, htext, hacc⟩ := hround acc data hdata
      refine ⟨rfl, ?_⟩
      rintro (e | ⟨⟨⟩⟩) s' rfl
      · exact ⟨stored, .inl rfl, h⟩
      refine ⟨rfl, ?_⟩
      rintro (e | ⟨⟨⟩⟩) s' hs'
      · obtain ⟨n, hn, rfl⟩ := hs'
        exact ⟨.stopped data n, .inr (.inr ⟨data, n, hdata, hn, rfl⟩), rfl, rfl⟩
      obtain rfl := hs'
      have hholds : (Stored.holds acc).On ext { file := some data, opened := true } :=
        ⟨rfl, account_eq_some.mpr ⟨data, text, rfl, htext, hacc⟩⟩
      refine ⟨trivial, ?_⟩
      rintro (e | ⟨⟨⟩⟩) s' rfl
      · exact ⟨.holds acc, .inr (.inl rfl), hholds⟩
      · exact ⟨.holds acc, rfl, hholds⟩

theorem carry_out_wp (stored : Stored) (disk : Disk) (c : Cmd) (h : stored.On ext disk)
    (hc : (storing ext to_vec_pretty).allows stored c) :
    (carry_out to_vec_pretty c).wp files (fun r disk' => ∃ stored',
      (storing ext to_vec_pretty).step stored c r stored' ∧ stored'.On ext disk') disk := by
  cases c
  case save_account acc => exact save_account_wp hround acc h
  case read_account =>
    refine ⟨trivial, ?_⟩
    rintro r s' ⟨rfl, rfl⟩
    exact ⟨stored, ⟨h.read, rfl⟩, h⟩
  case open_truncate path mode => exact hc.elim
  case write_opened bytes => exact hc.elim
  all_goals
    refine ⟨hc, ?_⟩
    rintro r s' rfl
    exact ⟨stored, rfl, h⟩

end Simulation

section Saving

variable {ext : Ext} {to_vec_pretty : Account → Except Str Octets}

-- A save, and the account that is read after it.
def save_and_read (ext : Ext) (to_vec_pretty : Account → Except Str Octets) (acc : Account) :
    Act (Except Str Unit × Option Account) := do
  let saved ← save_account to_vec_pretty acc
  let back ← read_account ext
  return (saved, back)

-- What stands for `save_and_read` where a save is one step.
theorem expand_save_and_read (acc : Account) :
    (do let saved ← ask (.save_account acc)
        let back ← read_account ext
        return (saved, back) : Act (Except Str Unit × Option Account)).expand
      (carry_out to_vec_pretty) = save_and_read ext to_vec_pretty acc := by
  have htail : ∀ saved : Except Str Unit,
      (do let back ← read_account ext
          return (saved, back) : Act (Except Str Unit × Option Account)).expand
        (carry_out to_vec_pretty) = read_account ext >>= fun back => return (saved, back) := by
    intro saved
    apply Prog.expand_of_uses (Q := (· = .read_account))
    · exact Prog.Uses.bind (read_account_uses rfl) fun _ => trivial
    · rintro c rfl
      rfl
  exact congrArg (save_account to_vec_pretty acc >>= ·) (funext htail)

theorem read_account_wp (stored : Stored) :
    (read_account ext).wp (storing ext to_vec_pretty)
      (fun back stored' => stored' = stored ∧ ∀ acc, stored = .holds acc → back = some acc) stored := by
  refine ⟨trivial, ?_⟩
  rintro r s' ⟨hread, rfl⟩
  cases s' with
  | holds acc =>
      obtain ⟨raw, rfl, hacc⟩ := hread
      simp only [Prog.bind, hacc]
      exact ⟨rfl, fun _ h => congrArg some (Stored.holds.inj h)⟩
  | stopped data n =>
      cases r with
      | none => exact ⟨rfl, fun _ h => by cases h⟩
      | some raw =>
          dsimp only [Prog.bind]
          cases ext.account raw <;> exact ⟨rfl, fun _ h => by cases h⟩

-- A save that fails keeps the account, or stores the new one, unless the write of it stopped: the
-- file was emptied before, and holds the bytes that were written.
theorem save_account_keeps
    (hround : ∀ acc data, to_vec_pretty acc = .ok data →
      ∃ text, Utf8.decode? data = some text ∧ ext.account text = .ok acc)
    (old acc : Account) {content : Option Octets}
    (hold : Disk.account ext { file := content } = some old) :
    (save_and_read ext to_vec_pretty acc).wp files (fun r after =>
      (r.1 = .ok () → r.2 = some acc) ∧
      (after.stopped = none → r.2 = some old ∨ r.2 = some acc) ∧
      ∀ n, after.stopped = some n → ∃ data, to_vec_pretty acc = .ok data ∧ n < data.length ∧
        after.file = some (data.take n)) { file := content } := by
  have hon : (Stored.holds old).On ext { file := content } := ⟨rfl, hold⟩
  have habstract : (do
      let saved ← ask (.save_account acc)
      let back ← read_account ext
      return (saved, back) : Act (Except Str Unit × Option Account)).wp (storing ext to_vec_pretty)
      (fun r stored => ((r.1 = .ok () → stored = .holds acc) ∧
        (stored = .holds old ∨ stored = .holds acc ∨ ∃ data n, to_vec_pretty acc = .ok data ∧
          n < data.length ∧ stored = .stopped data n)) ∧
        ∀ kept, stored = .holds kept → r.2 = some kept) (.holds old) := by
    refine ⟨trivial, fun saved stored hstep => ?_⟩
    change (read_account ext >>= fun back => return (saved, back)).wp _ _ stored
    refine Prog.wp_seq (read_account_wp stored) ?_
    rintro back s' ⟨rfl, hback⟩
    refine ⟨?_, hback⟩
    cases saved with
    | error e => exact ⟨(nomatch ·), hstep⟩
    | ok _ => exact ⟨fun _ => hstep, .inr (.inl hstep)⟩
  rw [← expand_save_and_read]
  refine Prog.wp_mono (Prog.wp_expand (carry_out_wp hround) habstract hon) ?_
  rintro r after ⟨stored, ⟨⟨hok, hstored⟩, hback⟩, hafter⟩
  refine ⟨fun h => hback acc (hok h), ?_⟩
  rcases hstored with rfl | rfl | ⟨data, n, hdata, hn, rfl⟩
  · refine ⟨fun _ => .inl (hback old rfl), fun n h => ?_⟩
    rw [hafter.1] at h
    cases h
  · refine ⟨fun _ => .inr (hback acc rfl), fun n h => ?_⟩
    rw [hafter.1] at h
    cases h
  · obtain ⟨hstopped, hfile⟩ := hafter
    rw [hstopped]
    refine ⟨fun h => (by cases h), fun m h => ?_⟩
    rw [← Option.some.inj h]
    exact ⟨data, hdata, hn, hfile⟩

end Saving

section Sample

def retyped : Account := { sample_account with password := "q".toList }

def retyped_text : Str := sample_text
  ["\x7b\n  \"apple_id\": \"a@b.c\",\n", "  \"password\": \"q\",\n", "  \"team_id\": \"T\"\n\x7d"]

def retyped_ext : Ext := { sample with
  account := fun text => if text = retyped_text then .ok retyped else sample.account text }

def retyped_pretty (acc : Account) : Except Str Octets :=
  if acc = retyped then .ok (Utf8.encode retyped_text) else .error "io error".toList

theorem retyped_round (acc : Account) (data : Octets) (h : retyped_pretty acc = .ok data) :
    ∃ text, Utf8.decode? data = some text ∧ retyped_ext.account text = .ok acc := by
  rw [retyped_pretty] at h
  split_ifs at h with hacc
  rw [← Except.ok.inj h, hacc]
  exact ⟨retyped_text, Utf8.decode?_encode _, by dsimp only [retyped_ext]; exact if_pos rfl⟩

-- The disk is full once the file is empty, and neither account is left.
theorem save_account_loses :
    Disk.account retyped_ext { file := some (Utf8.encode account_text) } = some sample_account ∧
      ¬ (save_and_read retyped_ext retyped_pretty retyped).wp files
        (fun r _ => r.1.isOk = false → r.2 = some sample_account ∨ r.2 = some retyped)
        { file := some (Utf8.encode account_text) } := by
  refine ⟨by decide, fun h => ?_⟩
  have hdata : retyped_pretty retyped = .ok (Utf8.encode retyped_text) := if_pos rfl
  rw [save_and_read, save_account, hdata] at h
  have hopened := h.2 (.ok ()) _ rfl
  have hstopped := hopened.2 (.error []) _ ⟨0, by decide, rfl⟩
  have hread := hstopped.2 _ _ ⟨rfl, rfl⟩ rfl
  revert hread
  decide

theorem save_account_keeps_retyped :
    (save_and_read retyped_ext retyped_pretty retyped).wp files (fun r after =>
      (r.1 = .ok () → r.2 = some retyped) ∧
      (after.stopped = none → r.2 = some sample_account ∨ r.2 = some retyped) ∧
      ∀ n, after.stopped = some n → ∃ data, retyped_pretty retyped = .ok data ∧ n < data.length ∧
        after.file = some (data.take n)) { file := some (Utf8.encode account_text) } :=
  save_account_keeps retyped_round sample_account retyped (by decide)

end Sample

end AltKeeper.Apple
