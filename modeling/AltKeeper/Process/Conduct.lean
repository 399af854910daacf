import AltKeeper.Phone.Search
import AltKeeper.Process

-- What every thread of the process keeps to, whatever the others do.
namespace AltKeeper

section Markers

-- The marks of work in progress on the page.
structure Marks where
  checking : Bool := false
  running : Bool := false
  working : Bool := false

-- No mark is set on the page besides these.
structure Marks.Bounds (m : Marks) (g : Inner) : Prop where
  checking : g.snapshot.checking = true → m.checking = true
  running : g.job.running = true → m.running = true
  working : g.login.phase = .working → m.working = true

def Clean (g : Inner) : Prop := Marks.Bounds {} g

-- The marks a handler sets for its job.
def Job.marks : Job → Marks
  | .check => { checking := true }
  | .renew _ => { running := true }
  | .login _ _ _ => { working := true }

-- The mark of this job is set.
def Job.Shows (g : Inner) : Job → Prop
  | .check => g.snapshot.checking = true
  | .renew _ => g.job.running = true
  | .login _ _ _ => g.login.phase = .working

end Markers

-- What a thread holds, what it knows of the page while it has the guard, the request it
-- serves, and the profiles it last saw on the phone.
structure Local where
  is_conn : Bool
  guard : Option (Inner → Prop) := none
  work : Bool := false
  link : Bool := false
  request : Option Value := none
  seen : List Octets := []

-- Whether the thread may open a link: a connection needs the lock, the others the guard.
def Local.MayConnect (s : Local) : Prop := if s.is_conn then s.work = true else s.guard.isSome

def Local.Idle (s : Local) : Prop := s.guard = none ∧ s.work = false ∧ s.link = false

section Conduct

variable (ext : Ext)

def identifier (req : Value) : Str := (req.get "identifier").as_str.getD []

-- The request asks to remove this profile.
def AsksRemoval (req : Value) (p : Profile.PhoneProfile) : Prop :=
  identifier req = "RemoveProvisioningProfilesRequest".toList ∧
    AltServer.matches_wanted ext (AltServer.wanted_bundles ext req) p = true

def Local.Allows (s : Local) : Cmd → Prop
  | .lock_work => s.is_conn = true ∧ s.work = false
  | .unlock_work => s.link = false
  | .connect _ => s.link = false ∧ s.MayConnect
  | .remove u => ∃ req raw p, s.request = some req ∧ raw ∈ s.seen ∧ ext.parse raw = some (some p) ∧
      p.uuid = u ∧ AsksRemoval ext req p
  | .try_busy => s.is_conn = false ∧ s.guard = none
  | .drop_guard => s.link = false ∧ ∃ k, s.guard = some k ∧ ∀ g, k g → Clean g
  | .spawn job => s.link = false ∧ ∃ k, s.guard = some k ∧ ∀ g, k g → job.marks.Bounds g ∧ job.Shows g
  | .write_inner _ => s.guard.isSome
  | _ => True

def Local.advance (s : Local) : (c : Cmd) → Resp c → Local
  | .log_request req, _ => { s with request := some req }
  | .lock_work, _ => { s with work := true }
  | .unlock_work, _ => { s with work := false }
  | .connect _, .linked => { s with link := true }
  | .drop_link, _ => { s with link := false }
  | .unwind, _ => { s with work := false, link := false }
  | .copy_all, .ok raw => { s with seen := raw }
  | .try_busy, r => if r then { s with guard := some Clean } else s
  | .drop_guard, _ => { s with guard := none }
  | .spawn _, _ => { s with guard := none }
  | .write_inner f, _ => { s with guard := s.guard.map fun k g => ∃ before, k before ∧ f before = g }
  | _, _ => s

def conduct : Prog.Protocol Resp Local where
  allows := Local.Allows ext
  step s c r s' := s' = s.advance c r

-- What the body of a job or of a connection calls: nothing that is done with a guard as a whole.
def Cmd.in_body : Cmd → Bool
  | .try_busy => false
  | .drop_guard => false
  | .spawn _ => false
  | _ => true

-- What leaves the lock, the guard and the page alone.
def Cmd.quiet : Cmd → Bool
  | .write_inner _ => false
  | .lock_work => false
  | .unlock_work => false
  | .unwind => false
  | c => c.in_body

-- What is always allowed, and changes nothing that the thread holds or knows.
def Cmd.plain : Cmd → Bool
  | .log_request _ => false
  | .connect _ => false
  | .drop_link => false
  | .copy_all => false
  | .remove _ => false
  | c => c.quiet

abbrev Plain (c : Cmd) : Prop := c.plain = true

def InBody : Set Cmd := { c | c.in_body }

def Quiet : Set Cmd := { c | c.quiet }

@[simp] theorem mem_InBody {c : Cmd} : c ∈ InBody ↔ c.in_body = true := Iff.rfl

@[simp] theorem mem_Quiet {c : Cmd} : c ∈ Quiet ↔ c.quiet = true := Iff.rfl

theorem Quiet.in_body {c : Cmd} (h : c ∈ Quiet) : c ∈ InBody := by
  cases c <;> first | exact h | exact rfl

variable {ext} {Q : Set Cmd} {s s' : Local} {c : Cmd} {r : Resp c}

@[simp] theorem conduct_allows :
    ((conduct ext).restrict Q).allows s c ↔ s.Allows ext c ∧ c ∈ Q := Iff.rfl

@[simp] theorem conduct_step :
    ((conduct ext).restrict Q).step s c r s' ↔ s' = s.advance c r := Iff.rfl

-- A call: what is allowed, and what follows from any response.
theorem conducts_ask {α : Type} {f : Resp c → Act α} {post : α → Local → Prop}
    (hc : s.Allows ext c) (hQ : c ∈ Q)
    (hf : ∀ r, (f r).wp ((conduct ext).restrict Q) post (s.advance c r)) :
    (ask c >>= f).wp ((conduct ext).restrict Q) post s := by
  refine ⟨⟨hc, hQ⟩, fun r s' h => ?_⟩
  obtain rfl := h
  exact hf r

end Conduct

section Frame

variable {s : Local} {c : Cmd} {r : Resp c}

@[simp] theorem advance_is_conn : (s.advance c r).is_conn = s.is_conn := by
  unfold Local.advance
  split <;> first | rfl | (split <;> rfl)

theorem advance_guard_isSome (hc : c.in_body = true) :
    (s.advance c r).guard.isSome = s.guard.isSome := by
  unfold Local.advance
  split <;> first | rfl | (simp [Cmd.in_body] at hc; done) | simp

theorem advance_of_quiet (hc : c.quiet = true) :
    (s.advance c r).guard = s.guard ∧ (s.advance c r).work = s.work := by
  unfold Local.advance
  split <;> first | exact ⟨rfl, rfl⟩ | simp [Cmd.quiet, Cmd.in_body] at hc

theorem advance_of_plain (hc : c.plain = true) : s.advance c r = s := by
  unfold Local.advance
  split <;> first | rfl | simp [Cmd.plain, Cmd.quiet, Cmd.in_body] at hc

theorem plain_quiet (hc : c.plain = true) : c ∈ Quiet := by
  cases c <;> first | exact hc | exact rfl

-- A part that calls nothing else can be run by any thread, at any time.
theorem plain_conducts {ext : Ext} {Q : Set Cmd} {α : Type} {p : Act α}
    (hQ : ∀ {c}, c ∈ Quiet → c ∈ Q) (hp : p.Uses Plain) :
    p.wp ((conduct ext).restrict Q) (fun _ s' => s' = s) s := by
  apply Prog.wp_of_uses hp
  intro c (hc : c.plain = true)
  refine ⟨⟨?_, hQ (plain_quiet hc)⟩, fun r s' h => ?_⟩
  · cases c <;> first | exact trivial | simp [Cmd.plain, Cmd.quiet, Cmd.in_body] at hc
  · rw [conduct_step, advance_of_plain hc] at h
    exact h

end Frame

section Phone

-- What holds of a thread while it works on a link, and stays true when it says something.
structure Talks (ext : Ext) (Q : Set Cmd) (I : Local → Prop) (say : Str → Act Unit) : Prop where
  link : ∀ {s} b, I s → I { s with link := b }
  may_connect : ∀ {s}, I s → s.MayConnect
  say : ∀ line {s}, I s →
    (say line).wp ((conduct ext).restrict Q) (fun _ s' => I s' ∧ s'.link = s.link) s

variable {Q : Set Cmd} {ext : Ext} (hQ : ∀ {c}, c ∈ Quiet → c ∈ Q)

section Address

include hQ

theorem read_last_addr_conducts {s : Local} :
    (Phone.read_last_addr ext).wp ((conduct ext).restrict Q) (fun _ s' => s' = s) s :=
  plain_conducts hQ (Phone.read_last_addr_uses (P := Plain) rfl)

theorem write_last_addr_conducts {s : Local} (addr : SocketAddr) :
    (Phone.write_last_addr ext addr).wp ((conduct ext).restrict Q) (fun _ s' => s' = s) s :=
  plain_conducts hQ (Phone.write_last_addr_uses (P := Plain) rfl (fun _ => rfl) addr)

theorem attempt_conducts {s : Local} (addr : SocketAddr) (hlink : s.link = false)
    (hmay : s.MayConnect) :
    (Phone.attempt ext addr).wp ((conduct ext).restrict Q)
      (fun r s' => s' = { s with link := succeeded r }) s := by
  unfold Phone.attempt
  refine conducts_ask ⟨hlink, hmay⟩ (hQ rfl) fun r => ?_
  cases r with
  | linked =>
      apply Prog.wp_seq (write_last_addr_conducts hQ addr)
      rintro - _ rfl
      simp [Local.advance, succeeded]
  | failed e => simp [Local.advance, succeeded, ← hlink]
  | expired => simp [Local.advance, succeeded, ← hlink]

end Address

section Search

variable {I : Local → Prop} {say : Str → Act Unit} (hI : Talks ext Q I say)

include hQ hI

theorem attempt_talks {s : Local} (addr : SocketAddr) (hs : I s) (hlink : s.link = false) :
    (Phone.attempt ext addr).wp ((conduct ext).restrict Q)
      (fun r s' => I s' ∧ s'.link = succeeded r) s := by
  apply Prog.wp_mono (attempt_conducts hQ addr hlink (hI.may_connect hs))
  rintro r _ rfl
  exact ⟨hI.link _ hs, rfl⟩

theorem try_known_talks (known : List SocketAddr) (search : Phone.Search) {s : Local} (hs : I s)
    (hlink : s.link = false) :
    (Phone.try_known ext say known search).wp ((conduct ext).restrict Q)
      (fun r s' => I s' ∧ s'.link = r.1.isSome) s := by
  induction known generalizing search s with
  | nil => exact ⟨hs, hlink⟩
  | cons addr known ih =>
      unfold Phone.try_known
      apply Prog.wp_seq (attempt_talks hQ hI addr hs hlink)
      rintro r s' ⟨hs', hlink'⟩
      cases r with
      | ok _ => exact ⟨hs', hlink'⟩
      | error e =>
          apply Prog.wp_seq (hI.say _ hs')
          rintro - s'' ⟨hs'', hlink''⟩
          exact ih _ hs'' (hlink''.trans hlink')

theorem try_found_talks (found : List SocketAddr) (search : Phone.Search) {s : Local} (hs : I s)
    (hlink : s.link = false) :
    (Phone.try_found ext say found search).wp ((conduct ext).restrict Q)
      (fun r s' => I s' ∧ s'.link = r.1.isSome) s := by
  induction found generalizing search s with
  | nil => exact ⟨hs, hlink⟩
  | cons addr found ih =>
      unfold Phone.try_found
      apply Prog.wp_seq (hI.say _ hs)
      rintro - s₁ ⟨hs₁, hlink₁⟩
      apply Prog.wp_seq (attempt_talks hQ hI addr hs₁ (hlink₁.trans hlink))
      rintro r s' ⟨hs', hlink'⟩
      cases r with
      | ok _ => exact ⟨hs', hlink'⟩
      | error e => exact ih _ hs' hlink'

theorem find_step_talks (port : UInt16) (step : Nat) {s : Local} (hs : I s) (hlink : s.link = false) :
    (Phone.find_step say port step).wp ((conduct ext).restrict Q)
      (fun _ s' => I s' ∧ s'.link = false) s := by
  unfold Phone.find_step
  split
  · apply Prog.wp_seq (hI.say _ hs)
    rintro - s' ⟨hs', hlink'⟩
    simp [Local.Allows, Local.advance, hQ, Cmd.quiet, Cmd.in_body, hs', hlink', hlink]
  · simp [Local.Allows, Local.advance, hQ, Cmd.quiet, Cmd.in_body, hs, hlink]

omit hQ in
theorem say_searching_talks (tried : List SocketAddr) {s : Local} (hs : I s) (hlink : s.link = false) :
    (Phone.say_searching say tried).wp ((conduct ext).restrict Q)
      (fun _ s' => I s' ∧ s'.link = false) s := by
  unfold Phone.say_searching
  split
  · apply Prog.wp_mono (hI.say _ hs)
    rintro - s' ⟨hs', hlink'⟩
    exact ⟨hs', hlink'.trans hlink⟩
  · exact ⟨hs, hlink⟩

theorem search_talks (port : UInt16) (steps : List Nat) (search : Phone.Search) {s : Local}
    (hs : I s) (hlink : s.link = false) :
    (Phone.search ext say port steps search).wp ((conduct ext).restrict Q)
      (fun r s' => I s' ∧ s'.link = r.1.isSome) s := by
  induction steps generalizing search s with
  | nil => exact ⟨hs, hlink⟩
  | cons step steps ih =>
      unfold Phone.search
      apply Prog.wp_seq (find_step_talks hQ hI port step hs hlink)
      rintro found s₁ ⟨hs₁, hlink₁⟩
      apply Prog.wp_seq (try_found_talks hQ hI _ _ hs₁ hlink₁)
      rintro ⟨addr, search'⟩ s₂ ⟨hs₂, hlink₂⟩
      cases addr with
      | some addr => exact ⟨hs₂, hlink₂⟩
      | none => exact ih search' hs₂ hlink₂

-- After a search the link is open exactly when an address is returned.
theorem connect_auto_talks (preferred : Option SocketAddr) {s : Local} (hs : I s)
    (hlink : s.link = false) :
    (Phone.connect_auto ext say preferred).wp ((conduct ext).restrict Q)
      (fun r s' => I s' ∧ s'.link = succeeded r) s := by
  unfold Phone.connect_auto
  refine conducts_ask trivial (hQ rfl) fun exists_pairing => ?_
  cases exists_pairing with
  | false => exact ⟨hs, hlink⟩
  | true =>
      apply Prog.wp_seq (read_last_addr_conducts hQ)
      rintro last _ rfl
      apply Prog.wp_seq (try_known_talks hQ hI _ _ hs hlink)
      rintro ⟨addr, search⟩ s₁ ⟨hs₁, hlink₁⟩
      cases addr with
      | some addr => exact ⟨hs₁, hlink₁⟩
      | none =>
          apply Prog.wp_seq (say_searching_talks hI search.tried hs₁ hlink₁)
          rintro - s₂ ⟨hs₂, hlink₂⟩
          apply Prog.wp_seq (read_last_addr_conducts hQ)
          rintro last' _ rfl
          apply Prog.wp_seq (search_talks hQ hI _ _ _ hs₂ hlink₂)
          rintro ⟨addr, search'⟩ s₃ ⟨hs₃, hlink₃⟩
          cases addr with
          | some addr => exact ⟨hs₃, hlink₃⟩
          | none =>
              dsimp only
              split <;> exact ⟨hs₃, hlink₃⟩

omit hI in
theorem phone_profiles_conducts (hseen : ∀ {s : Local} raw, I s → I { s with seen := raw })
    {s : Local} (hs : I s) :
    (Phone.phone_profiles ext).wp ((conduct ext).restrict Q)
      (fun _ s' => I s' ∧ s'.link = s.link) s := by
  unfold Phone.phone_profiles
  refine conducts_ask trivial (hQ rfl) fun raw => ?_
  cases raw with
  | error e => exact ⟨hs, rfl⟩
  | ok raw =>
      dsimp only
      split <;> exact ⟨hseen raw hs, rfl⟩

end Search

end Phone

end AltKeeper
