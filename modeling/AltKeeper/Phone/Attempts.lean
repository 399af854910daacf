import AltKeeper.Phone.Search
import Mathlib.Data.List.Induction
import Mathlib.Data.List.Nodup
import Mathlib.Data.List.Perm.Subperm

-- Which addresses the search of the phone tries, and in what order.
namespace AltKeeper.Phone

section Results

-- A service that Bonjour resolved: its IPv4 addresses and its port.
structure Resolved where
  ips : List Octets
  port : UInt16

def add_found (found : List SocketAddr) (addr : SocketAddr) : List SocketAddr :=
  if addr ∈ found then found else found ++ [addr]

def discover (events : List Resolved) : List SocketAddr :=
  events.foldl (fun found svc => svc.ips.foldl (fun found ip => add_found found ⟨ip, svc.port⟩) found) []

-- The other addresses of the network of `a.b.c.d`.
def subnet_hosts (a b c d : UInt8) : List Octets :=
  (((List.range' 1 254).map UInt8.ofNat).filter (· ≠ d)).map fun h => [a, b, c, h]

def addr_le (x y : SocketAddr) : Bool := decide (x.ip < y.ip) || (x.ip == y.ip && x.port ≤ y.port)

-- What takes a connection does so in any order.
def scan_lan (found : List SocketAddr) : List SocketAddr := found.mergeSort addr_le

def Scanned (port : UInt16) (found : List SocketAddr) : Prop :=
  ∃ a b c d, found.Subperm ((subnet_hosts a b c d).map fun ip => ⟨ip, port⟩)

theorem add_found_nodup {found : List SocketAddr} (h : found.Nodup) (addr : SocketAddr) :
    (add_found found addr).Nodup := by
  unfold add_found
  by_cases hmem : addr ∈ found
  · rwa [if_pos hmem]
  · rw [if_neg hmem]
    rw [← List.concat_eq_append]
    exact List.Nodup.concat hmem h

theorem discover_nodup (events : List Resolved) : (discover events).Nodup := by
  have hservice : ∀ (port : UInt16) (ips : List Octets) (found : List SocketAddr), found.Nodup →
      (ips.foldl (fun found ip => add_found found ⟨ip, port⟩) found).Nodup := by
    intro port ips
    induction ips with
    | nil => exact fun _ h => h
    | cons ip ips ih => exact fun found h => ih _ (add_found_nodup h _)
  have hevents : ∀ found : List SocketAddr, found.Nodup → (events.foldl (fun found svc =>
      svc.ips.foldl (fun found ip => add_found found ⟨ip, svc.port⟩) found) found).Nodup := by
    induction events with
    | nil => exact fun _ h => h
    | cons svc events ih => exact fun found h => ih _ (hservice svc.port svc.ips found h)
  exact hevents [] List.nodup_nil

theorem subnet_hosts_nodup (a b c d : UInt8) : (subnet_hosts a b c d).Nodup := by
  have hhosts : ((List.range' 1 254).map UInt8.ofNat).Nodup := by
    apply List.Nodup.map_on _ List.nodup_range'
    intro h hh h' hh' heq
    have hvalue := congrArg UInt8.toNat heq
    rw [List.mem_range'_1] at hh hh'
    rw [UInt8.toNat_ofNat', UInt8.toNat_ofNat'] at hvalue
    omega
  apply List.Nodup.map _ (hhosts.filter _)
  intro h h' heq
  simpa using heq

theorem scan_lan_nodup {port : UInt16} {found : List SocketAddr} (h : Scanned port found) :
    (scan_lan found).Nodup := by
  obtain ⟨a, b, c, d, kept, hperm, hsub⟩ := h
  have hall : ((subnet_hosts a b c d).map fun ip => (⟨ip, port⟩ : SocketAddr)).Nodup := by
    apply List.Nodup.map _ (subnet_hosts_nodup a b c d)
    intro ip ip' heq
    simpa using heq
  rw [scan_lan, (List.mergeSort_perm found addr_le).nodup_iff, ← hperm.nodup_iff]
  exact hall.sublist hsub

end Results

section Outside

-- A search on the network.
inductive Seek where
  | bonjour
  | lan (port : UInt16)

-- What the search meets: the files, the searches made and what they found so far, and the attempts
-- with their outcome.
structure Outside where
  pairing : Bool
  file : Option Str
  searches : List Seek := []
  seen : List SocketAddr := []
  attempts : List (SocketAddr × Bool) := []

def Outside.attempt (s : Outside) (addr : SocketAddr) (ok : Bool) : Outside :=
  { s with attempts := s.attempts ++ [(addr, ok)] }

def Outside.see (s : Outside) (seek : Seek) (found : List SocketAddr) : Outside :=
  { s with searches := s.searches ++ [seek], seen := s.seen ++ found }

def links : Attempt → Bool
  | .linked => true
  | _ => false

-- The file is written, and nobody else writes it.
def outside : Prog.Protocol Resp Outside where
  allows _ _ := True
  step s c r s' :=
    match c, r with
    | .pairing_exists, r => r = s.pairing ∧ s' = s
    | .read_last_addr, r => r = s.file ∧ s' = s
    | .write_last_addr text, _ => s' = { s with file := some text }
    | .discover, r => (∃ events, r = discover events) ∧ s' = s.see .bonjour r
    | .scan_lan port, r => (∃ found, Scanned port found ∧ r = scan_lan found) ∧ s' = s.see (.lan port) r
    | .connect addr, r => s' = s.attempt addr (links r)
    | _, _ => s' = s

variable (ext : Ext)

def cached (s : Outside) : Option SocketAddr := s.file.bind fun text => ext.parse_addr (Str.trim text)

-- The file has the text of the address, or another that is read as it.
def Holds (addr : SocketAddr) (s : Outside) : Prop :=
  s.file = some (ext.addr_text addr) ∨ cached ext s = some addr

-- The addresses to try, each where it comes first.
def to_try (preferred : Option SocketAddr) (s s' : Outside) : List SocketAddr :=
  (preferred.toList ++ (cached ext s).toList ++ s'.seen).eraseDups

-- The searches, in order: Bonjour, the local network at the port of the cached address, Bonjour again.
def seeks (s : Outside) : List Seek :=
  [.bonjour, .lan (((cached ext s).map (·.port)).getD 49152), .bonjour]

structure Finds (preferred : Option SocketAddr) (s : Outside) (result : Except Str SocketAddr)
    (s' : Outside) : Prop where
  once : (s'.attempts.map (·.1)).Nodup
  in_order : s'.attempts.map (·.1) <+: to_try ext preferred s s'
  searched : s'.searches <+: seeks ext s
  found : ∀ addr, result = .ok addr → Holds ext addr s' ∧
    (∃ failed, s'.attempts = failed ++ [(addr, true)] ∧ ∀ a ∈ failed, a.2 = false) ∧
    (addr ∈ preferred.toList ++ (cached ext s).toList → s'.searches = [])
  lost : ∀ e, result = .error e → s'.file = s.file ∧ s'.searches = seeks ext s ∧
    (∀ a ∈ s'.attempts, a.2 = false) ∧
    ∀ addr ∈ preferred.toList ++ (cached ext s).toList ++ s'.seen, addr ∈ s'.attempts.map (·.1)

-- How a search ends, with the pairing or without it.
def Sought (preferred : Option SocketAddr) (s : Outside) (result : Except Str SocketAddr)
    (s' : Outside) : Prop :=
  if s.pairing then Finds ext preferred s result s' else result.isOk = false ∧ s' = s

end Outside

section Lists

variable {α : Type*} [DecidableEq α]

theorem eraseDups_of_nodup {l : List α} (h : l.Nodup) : l.eraseDups = l := by
  induction l with
  | nil => rfl
  | cons a l ih =>
      obtain ⟨ha, hl⟩ := List.nodup_cons.mp h
      rw [List.eraseDups_cons, List.filter_eq_self.mpr, ih hl]
      intro b hb
      have hne : b ≠ a := fun heq => ha (heq ▸ hb)
      simpa using hne

-- What is found and was not met before comes last.
theorem eraseDups_append_nodup {l found : List α} (h : found.Nodup) :
    (l ++ found).eraseDups = l.eraseDups ++ found.filter (· ∉ l.eraseDups) := by
  have hnew : found.removeAll l = found.filter (· ∉ l.eraseDups) := by
    unfold List.removeAll
    apply List.filter_congr
    intro a ha
    simp
  rw [List.eraseDups_append, hnew, eraseDups_of_nodup (h.filter _)]

theorem nodup_eraseDups (l : List α) : l.eraseDups.Nodup := by
  induction l using List.reverseRecOn with
  | nil => exact List.nodup_nil
  | append_singleton l a ih =>
      rw [eraseDups_append_nodup (List.nodup_singleton a)]
      apply ih.append ((List.nodup_singleton a).filter _)
      intro b hb hnew
      have hout := (List.mem_filter.mp hnew).2
      simp [hb] at hout

end Lists

section Steps

variable {ext : Ext} {say : Str → Act Unit} (hsay : ∀ line, (say line).Uses fun c => c.finds = false)

def failed (addrs : List SocketAddr) : List (SocketAddr × Bool) := addrs.map fun addr => (addr, false)

theorem say_wp (hsay : ∀ line, (say line).Uses fun c => c.finds = false) (line : Str) (s : Outside) :
    (say line).wp outside (fun _ s' => s' = s) s := by
  apply Prog.wp_of_uses (hsay line)
  intro c hc
  refine ⟨trivial, fun r s' hstep => ?_⟩
  cases c <;> first | exact hstep | cases hc

theorem read_last_addr_wp (s : Outside) :
    (read_last_addr ext).wp outside (fun last s' => last = cached ext s ∧ s' = s) s := by
  refine ⟨trivial, ?_⟩
  rintro r s' ⟨rfl, rfl⟩
  exact ⟨rfl, rfl⟩

theorem write_last_addr_wp (addr : SocketAddr) (s : Outside) :
    (write_last_addr ext addr).wp outside
      (fun _ s' => Holds ext addr s' ∧ s'.searches = s.searches ∧ s'.seen = s.seen ∧
        s'.attempts = s.attempts) s := by
  apply Prog.wp_seq (read_last_addr_wp s)
  rintro last s' ⟨rfl, rfl⟩
  by_cases hheld : cached ext s' = some addr
  · rw [if_pos hheld]
    exact ⟨.inr hheld, rfl, rfl, rfl⟩
  · rw [if_neg hheld]
    refine ⟨trivial, ?_⟩
    rintro r s'' rfl
    exact ⟨.inl rfl, rfl, rfl, rfl⟩

-- What an attempt leaves.
def Attempted (ext : Ext) (addr : SocketAddr) (s : Outside) : Except Str Unit → Outside → Prop
  | .ok _, s' => Holds ext addr s' ∧ s'.searches = s.searches ∧ s'.seen = s.seen ∧
      s'.attempts = s.attempts ++ [(addr, true)]
  | .error _, s' => s' = s.attempt addr false

theorem attempt_wp (addr : SocketAddr) (s : Outside) :
    (attempt ext addr).wp outside (Attempted ext addr s) s := by
  refine ⟨trivial, ?_⟩
  rintro r s' rfl
  cases r with
  | linked =>
      apply Prog.wp_seq (write_last_addr_wp addr _)
      exact fun _ s'' h => h
  | failed e => rfl
  | expired => rfl

-- What trying some addresses leaves: the first that answers is the last that is tried.
def Tried (ext : Ext) (addrs : List SocketAddr) (s : Outside) : Option SocketAddr → Outside → Prop
  | some addr, s' => Holds ext addr s' ∧ s'.searches = s.searches ∧ s'.seen = s.seen ∧ ∃ before after,
      addrs = before ++ addr :: after ∧ s'.attempts = s.attempts ++ failed before ++ [(addr, true)]
  | none, s' => s' = { s with attempts := s.attempts ++ failed addrs }

theorem Tried.cons {addr : SocketAddr} {addrs : List SocketAddr} {s s' : Outside}
    {r : Option SocketAddr} (h : Tried ext addrs (s.attempt addr false) r s') :
    Tried ext (addr :: addrs) s r s' := by
  have hsplit : ∀ rest, s.attempts ++ [(addr, false)] ++ failed rest = s.attempts ++ failed (addr :: rest) :=
    fun rest => by simp [failed]
  cases r with
  | none =>
      rw [Tried, Outside.attempt, hsplit] at h
      exact h
  | some linked =>
      obtain ⟨hholds, hsearches, hseen, before, after, rfl, hattempts⟩ := h
      refine ⟨hholds, hsearches, hseen, addr :: before, after, rfl, ?_⟩
      rw [hattempts, ← hsplit]
      rfl

theorem Tried.first {addr : SocketAddr} {addrs : List SocketAddr} {s s' : Outside} {u : Unit}
    (h : Attempted ext addr s (.ok u) s') : Tried ext (addr :: addrs) s (some addr) s' :=
  ⟨h.1, h.2.1, h.2.2.1, [], addrs, rfl, by rw [h.2.2.2]; simp [failed]⟩

-- What a loop over some addresses leaves: when none answers, all of them count as tried.
def Tries (ext : Ext) (addrs : List SocketAddr) (srch : Search) (s : Outside)
    (r : Option SocketAddr × Search) (s' : Outside) : Prop :=
  Tried ext addrs s r.1 s' ∧ (r.1 = none → r.2.tried = srch.tried ++ addrs)

theorem Tries.nil (srch : Search) (s : Outside) : Tries ext [] srch s (none, srch) s := by
  refine ⟨?_, fun _ => (List.append_nil _).symm⟩
  simp [Tried, failed]

theorem Tries.cons {addr : SocketAddr} {addrs : List SocketAddr} {srch srch' : Search}
    {s s' : Outside} {r : Option SocketAddr × Search}
    (htried : srch'.tried = srch.tried ++ [addr])
    (h : Tries ext addrs srch' (s.attempt addr false) r s') : Tries ext (addr :: addrs) srch s r s' := by
  refine ⟨h.1.cons, fun hnone => ?_⟩
  rw [h.2 hnone, htried, List.append_assoc]
  rfl

-- The search that a step makes.
def seek (port : UInt16) (step : Nat) : Seek := if step = 1 then .lan port else .bonjour

include hsay

theorem try_known_wp (known : List SocketAddr) (srch : Search) (s : Outside) :
    (try_known ext say known srch).wp outside (Tries ext known srch s) s := by
  induction known generalizing srch s with
  | nil => exact .nil srch s
  | cons addr known ih =>
      apply Prog.wp_seq (attempt_wp addr s)
      intro r s' hattempt
      cases r with
      | ok u => exact ⟨Tried.first hattempt, by simp⟩
      | error e =>
          obtain rfl : s' = s.attempt addr false := hattempt
          apply Prog.wp_seq (say_wp hsay _ _)
          rintro _ s' rfl
          exact Prog.wp_mono (ih _ _) fun r s'' htries => htries.cons rfl

theorem try_found_wp (found : List SocketAddr) (srch : Search) (s : Outside) :
    (try_found ext say found srch).wp outside (Tries ext found srch s) s := by
  induction found generalizing srch s with
  | nil => exact .nil srch s
  | cons addr found ih =>
      apply Prog.wp_seq (say_wp hsay _ _)
      rintro _ s' rfl
      apply Prog.wp_seq (attempt_wp addr _)
      intro r s' hattempt
      cases r with
      | ok u => exact ⟨Tried.first hattempt, by simp⟩
      | error e =>
          obtain rfl : s' = Outside.attempt _ addr false := hattempt
          exact Prog.wp_mono (ih _ _) fun r s'' htries => htries.cons rfl

theorem say_searching_wp (tried : List SocketAddr) (s : Outside) :
    (say_searching say tried).wp outside (fun _ s' => s' = s) s := by
  unfold say_searching
  by_cases hempty : tried = []
  · rw [if_pos hempty]
    exact say_wp hsay _ s
  · rw [if_neg hempty]
    rfl

theorem find_step_wp (port : UInt16) (step : Nat) (s : Outside) :
    (find_step say port step).wp outside
      (fun found s' => found.Nodup ∧ s' = s.see (seek port step) found) s := by
  unfold find_step seek
  by_cases hscan : step = 1
  · rw [if_pos hscan, if_pos hscan]
    apply Prog.wp_seq (say_wp hsay _ _)
    rintro _ s' rfl
    refine ⟨trivial, ?_⟩
    rintro r s'' ⟨⟨found, hscanned, rfl⟩, rfl⟩
    exact ⟨scan_lan_nodup hscanned, rfl⟩
  · rw [if_neg hscan, if_neg hscan]
    refine ⟨trivial, ?_⟩
    rintro r s'' ⟨⟨events, rfl⟩, rfl⟩
    exact ⟨discover_nodup events, rfl⟩

end Steps

section Searches

variable {ext : Ext} {say : Str → Act Unit} {known : List SocketAddr} {file : Option Str}
  {made all : List Seek}

-- Everything met so far was tried, in vain.
structure Searched (known : List SocketAddr) (file : Option Str) (made : List Seek)
    (tried : List SocketAddr) (s : Outside) : Prop where
  met : tried = (known ++ s.seen).eraseDups
  attempts : s.attempts = failed tried
  file : s.file = file
  searches : s.searches = made

-- How the search ends, with everything that was met by then; `all` are the searches there can be.
def Ended (ext : Ext) (known : List SocketAddr) (file : Option Str) (all : List Seek) :
    Option SocketAddr → Outside → Prop
  | some addr, s => Holds ext addr s ∧ s.searches <+: all ∧ (addr ∈ known → s.searches = []) ∧
      ∃ before after, (known ++ s.seen).eraseDups = before ++ addr :: after ∧
        s.attempts = failed before ++ [(addr, true)]
  | none, s => s.attempts = failed (known ++ s.seen).eraseDups ∧ s.file = file ∧ s.searches = all

-- The known addresses are tried before any search.
theorem Tried.begun (all : List Seek) {s s' : Outside} {r : Option SocketAddr} (hseen : s.seen = [])
    (hattempts : s.attempts = []) (hsearches : s.searches = [])
    (h : Tried ext known.eraseDups s r s') :
    match r with
    | some addr => Ended ext known s.file all (some addr) s'
    | none => Searched known s.file [] known.eraseDups s' := by
  cases r with
  | some addr =>
      obtain ⟨hholds, hsearches', hseen', before, after, hsplit, hall⟩ := h
      rw [hsearches] at hsearches'
      refine ⟨hholds, ?_, fun _ => hsearches', before, after, ?_, ?_⟩
      · rw [hsearches']
        exact List.nil_prefix
      · rw [hseen', hseen, List.append_nil, hsplit]
      · rw [hall, hattempts, List.nil_append]
  | none =>
      obtain rfl := h
      refine ⟨?_, ?_, rfl, hsearches⟩
      · rw [hseen, List.append_nil]
      · rw [hattempts, List.nil_append]

-- The addresses that are new are tried next.
theorem Tried.ended {tried found : List SocketAddr} {s s' : Outside} {r : Option SocketAddr} {sk : Seek}
    (hsearched : Searched known file made tried s) (hall : made ++ [sk] <+: all) (hnodup : found.Nodup)
    (h : Tried ext (found.filter (· ∉ tried)) (s.see sk found) r s') :
    match r with
    | some addr => Ended ext known file all (some addr) s'
    | none => Searched known file (made ++ [sk]) (tried ++ found.filter (· ∉ tried)) s' := by
  obtain ⟨htried, hattempts, hfile, hmade⟩ := hsearched
  have horder : (known ++ (s.see sk found).seen).eraseDups = tried ++ found.filter (· ∉ tried) := by
    rw [Outside.see, ← List.append_assoc, eraseDups_append_nodup hnodup, htried]
  have hsearches : (s.see sk found).searches = made ++ [sk] := by
    rw [Outside.see, hmade]
  cases r with
  | some addr =>
      obtain ⟨hholds, hsame, hseen, before, after, hsplit, hattempted⟩ := h
      have hnew : addr ∉ tried := by
        have hmem : addr ∈ found.filter (· ∉ tried) := by rw [hsplit]; simp
        simpa using (List.mem_filter.mp hmem).2
      refine ⟨hholds, ?_, fun hknown => ?_, tried ++ before, after, ?_, ?_⟩
      · rw [hsame, hsearches]
        exact hall
      · refine absurd ?_ hnew
        rw [htried, List.mem_eraseDups]
        exact List.mem_append_left _ hknown
      · rw [hseen, horder, hsplit, List.append_assoc]
      · rw [hattempted, Outside.see, hattempts, failed, failed, failed, List.map_append]
  | none =>
      obtain rfl := h
      refine ⟨horder.symm, ?_, hfile, hsearches⟩
      rw [Outside.see, hattempts, failed, failed, failed, List.map_append]

theorem search_wp (hsay : ∀ line, (say line).Uses fun c => c.finds = false) (port : UInt16)
    (steps : List Nat) {srch : Search} {s : Outside} (h : Searched known file made srch.tried s) :
    (search ext say port steps srch).wp outside
      (fun r s' => Ended ext known file (made ++ steps.map (seek port)) r.1 s') s := by
  induction steps generalizing srch s made with
  | nil => exact ⟨by rw [h.attempts, h.met], h.file, by rw [h.searches, List.map_nil, List.append_nil]⟩
  | cons step steps ih =>
      have hall : made ++ (step :: steps).map (seek port) =
          made ++ [seek port step] ++ steps.map (seek port) := by simp
      rw [hall]
      apply Prog.wp_seq (find_step_wp hsay port step s)
      rintro found s' ⟨hnodup, rfl⟩
      apply Prog.wp_seq (try_found_wp hsay _ srch _)
      rintro ⟨linked, srch'⟩ s' ⟨htried, hlist⟩
      have hended := htried.ended h (List.prefix_append _ (steps.map (seek port))) hnodup
      cases linked with
      | some addr => exact hended
      | none =>
          rw [← hlist rfl] at hended
          exact ih hended

theorem connect_auto_wp (hsay : ∀ line, (say line).Uses fun c => c.finds = false)
    (preferred : Option SocketAddr) {s : Outside} (hpairing : s.pairing = true)
    (hseen : s.seen = []) (hattempts : s.attempts = []) (hsearches : s.searches = []) :
    (connect_auto ext say preferred).wp outside (fun result s' =>
      Ended ext (preferred.toList ++ (cached ext s).toList) s.file (seeks ext s) result.toOption s') s := by
  refine ⟨trivial, ?_⟩
  rintro r s' ⟨rfl, rfl⟩
  rw [hpairing]
  apply Prog.wp_seq (read_last_addr_wp _)
  rintro last s' ⟨rfl, rfl⟩
  have hknown : (preferred.toList ++ (cached ext s').toList).eraseDups =
      preferred.toList ++ (cached ext s').toList.filter (· ∉ preferred.toList) := by
    rw [eraseDups_append_nodup (by cases cached ext s' <;> simp)]
    cases preferred <;> rfl
  apply Prog.wp_seq (try_known_wp hsay _ ⟨[], []⟩ _)
  rintro ⟨linked, srch⟩ s'' ⟨htried, hlist⟩
  rw [← hknown] at htried hlist
  have hbegun := htried.begun (seeks ext s') hseen hattempts hsearches
  cases linked with
  | some addr => exact hbegun
  | none =>
      have hsearched :
          Searched (preferred.toList ++ (cached ext s').toList) s'.file [] srch.tried s'' := by
        rw [hlist rfl, List.nil_append]
        exact hbegun
      have hcached : cached ext s'' = cached ext s' := by rw [cached, cached, hsearched.file]
      apply Prog.wp_seq (say_searching_wp hsay _ _)
      rintro _ s'' rfl
      apply Prog.wp_seq (read_last_addr_wp _)
      rintro last s'' ⟨rfl, rfl⟩
      apply Prog.wp_seq (search_wp hsay _ [0, 1, 2] hsearched)
      rw [hcached]
      rintro ⟨linked, srch'⟩ s'' hended
      cases linked with
      | some addr => exact hended
      | none =>
          dsimp only
          by_cases hempty : srch'.tried = [] ∨ srch'.last_err = []
          · rw [if_pos hempty]
            exact hended
          · rw [if_neg hempty]
            exact hended

end Searches

section Search

variable {ext : Ext}

theorem map_failed (addrs : List SocketAddr) : (failed addrs).map (·.1) = addrs := by
  rw [failed, List.map_map]
  exact List.map_id addrs

theorem not_of_mem_failed {addrs : List SocketAddr} : ∀ a ∈ failed addrs, a.2 = false := by
  simp [failed]

theorem Ended.finds {preferred : Option SocketAddr} {s s' : Outside} {result : Except Str SocketAddr}
    (h : Ended ext (preferred.toList ++ (cached ext s).toList) s.file (seeks ext s) result.toOption s') :
    Finds ext preferred s result s' := by
  have hnodup := nodup_eraseDups (preferred.toList ++ (cached ext s).toList ++ s'.seen)
  cases result with
  | ok addr =>
      obtain ⟨hholds, hsearches, hknown, before, after, hsplit, hattempts⟩ := h
      have htried : s'.attempts.map (·.1) = before ++ [addr] := by
        rw [hattempts, List.map_append, map_failed]
        rfl
      have hbegins : before ++ [addr] <+: to_try ext preferred s s' := by
        rw [to_try, hsplit]
        exact ⟨after, by simp⟩
      refine ⟨?_, ?_, hsearches, ?_, by simp⟩
      · rw [htried]
        exact hnodup.sublist hbegins.sublist
      · rw [htried]
        exact hbegins
      · rintro addr' ⟨⟩
        exact ⟨hholds, ⟨failed before, hattempts, not_of_mem_failed⟩, hknown⟩
  | error e =>
      obtain ⟨hattempts, hfile, hsearches⟩ := h
      have htried : s'.attempts.map (·.1) = to_try ext preferred s s' := by
        rw [hattempts, map_failed, to_try]
      refine ⟨?_, ?_, ⟨[], by rw [hsearches, List.append_nil]⟩, by simp,
        fun _ _ => ⟨hfile, hsearches, ?_, fun addr haddr => ?_⟩⟩
      · rw [htried]
        exact hnodup
      · exact ⟨[], by rw [htried, List.append_nil]⟩
      · rw [hattempts]
        exact not_of_mem_failed
      · rw [htried, to_try, List.mem_eraseDups]
        exact haddr

theorem connect_auto_sought {say : Str → Act Unit}
    (hsay : ∀ line, (say line).Uses fun c => c.finds = false) (preferred : Option SocketAddr)
    (pairing : Bool) (file : Option Str) :
    (connect_auto ext say preferred).wp outside (Sought ext preferred { pairing, file })
      { pairing, file } := by
  cases pairing with
  | false =>
      refine ⟨trivial, ?_⟩
      rintro r s' ⟨rfl, rfl⟩
      exact ⟨rfl, rfl⟩
  | true => exact Prog.wp_mono (connect_auto_wp hsay preferred rfl rfl rfl rfl) fun _ _ => Ended.finds

-- With a pairing, every address is tried once, in order, until one answers.
theorem connect_auto_finds {say : Str → Act Unit}
    (hsay : ∀ line, (say line).Uses fun c => c.finds = false) (preferred : Option SocketAddr)
    (file : Option Str) :
    (connect_auto ext say preferred).wp outside (Finds ext preferred { pairing := true, file })
      { pairing := true, file } :=
  connect_auto_sought hsay preferred true file

theorem connect_auto_finds_sample :
    (connect_auto sample (fun _ => return ()) (some sample_addr)).wp outside
      (Finds sample (some sample_addr) { pairing := true, file := some sample_addr_text })
      { pairing := true, file := some sample_addr_text } :=
  @connect_auto_finds sample (fun _ => return ()) (fun _ => trivial) (some sample_addr) (some sample_addr_text)

-- Without a pairing nothing is tried, not even the address that was asked for.
theorem connect_auto_not_finds :
    (connect_auto sample (fun _ => return ()) (some sample_addr)).wp outside
        (fun result s' => result.isOk = false ∧ s'.attempts = []) { pairing := false, file := none } ∧
      ¬ ∀ (ext : Ext) (say : Str → Act Unit), (∀ line, (say line).Uses fun c => c.finds = false) →
        ∀ preferred pairing file, (connect_auto ext say preferred).wp outside
          (Finds ext preferred { pairing, file }) { pairing, file } := by
  constructor
  · refine ⟨trivial, ?_⟩
    rintro r s' ⟨rfl, rfl⟩
    exact ⟨rfl, rfl⟩
  intro hall
  have hfinds := (hall sample (fun _ => return ()) (fun _ => trivial) (some sample_addr) false none).2
    false _ ⟨rfl, rfl⟩
  obtain ⟨-, -, -, htried⟩ := Finds.lost hfinds _ rfl
  have hmem := htried sample_addr (by decide)
  exact absurd hmem (by decide)

end Search

end AltKeeper.Phone
