import AltKeeper.Dnssd.Echo
import AltKeeper.Identity

namespace AltKeeper.Dnssd

section Client

-- A client asks, and keeps the data of the answers it decodes.
def lookup (z : Zone) (id : UInt16) (recursion_desired : Bool) (name : Dns.Name) (qtype : UInt16) :
    Option (List Dns.RData) := do
  let reply ← handle z (question id recursion_desired name qtype).encode
  let m ← Dns.decode reply
  some (m.answers.map (·.data))

-- Each name asked for is one that came with the answer before.
def ChainCloses (z : Zone) (domain id : Str) (port : UInt16) (address : Ipv4Addr) : Prop :=
  ∀ (txid : UInt16) (rd : Bool) (asked : Str),
    asked.to_ascii_lowercase = Str.to_ascii_lowercase ("_altserver._tcp.".toList ++ domain) →
    ∃ (inst host : Dns.Name) (priority weight : UInt16) (text : Dns.Text) (o₁ o₂ o₃ o₄ : UInt8),
      lookup z txid rd (wireName asked) TYPE_PTR = some [.ptr inst] ∧
      lookup z txid rd inst TYPE_SRV = some [.srv priority weight port host] ∧
      lookup z txid rd inst TYPE_TXT = some [.txt text []] ∧
      text.1 = Utf8.encode ("serverID=".toList ++ id) ∧
      lookup z txid rd host TYPE_A = some [.a o₁ o₂ o₃ o₄] ∧
      address.octets = [o₁, o₂, o₃, o₄]

-- The questions a client asks: for the service, in any letters, and then for each name as it decoded
-- it from the answer before.
inductive AskedAlong (z : Zone) (domain : Str) : Dns.Name → UInt16 → Prop
  | browse {asked : Str} (service : asked.to_ascii_lowercase =
      Str.to_ascii_lowercase ("_altserver._tcp.".toList ++ domain)) :
      AskedAlong z domain (wireName asked) TYPE_PTR
  | inst {name inst : Dns.Name} {txid rd qtype data} (before : AskedAlong z domain name TYPE_PTR)
      (answer : lookup z txid rd name TYPE_PTR = some data) (named : .ptr inst ∈ data)
      (either : qtype = TYPE_SRV ∨ qtype = TYPE_TXT) : AskedAlong z domain inst qtype
  | host {name host : Dns.Name} {txid rd priority weight port data}
      (before : AskedAlong z domain name TYPE_SRV)
      (answer : lookup z txid rd name TYPE_SRV = some data)
      (named : .srv priority weight port host ∈ data) : AskedAlong z domain host TYPE_A

-- The replies to the questions that the client asks need no truncation.
def RepliesFit (z : Zone) (domain : Str) : Prop :=
  ∀ name qtype, AskedAlong z domain name qtype → ∀ (txid : UInt16) (rd : Bool) (q : Query),
    parse_query (question txid rd name qtype).encode = some q → (full_reply z q).length ≤ MAX_REPLY

-- The length of a reply depends on the name and the type that are asked for only.
def replyLength (z : Zone) (name : Str) (qtype : UInt16) : Nat :=
  16 + (Dns.encodeName (wireName name)).length +
    (((z.answer name qtype).getD []).flatMap fun r => r.wire.encode).length

theorem length_full_reply (z : Zone) (q : Query) :
    (full_reply z q).length = replyLength z q.name q.qtype := by
  simp only [full_reply, build_reply_eq, Dns.Message.encode, replyMessage, Dns.Question.encode,
    replyLength, List.flatMap_cons, List.flatMap_nil, List.append_nil, List.length_append,
    List.flatMap_map, Bytes.length_be16]
  omega

theorem lookup_eq (z : Zone) (id : UInt16) (rd : Bool) (name : Dns.Name) (qtype : UInt16) :
    lookup z id rd name qtype =
      if name.length ≤ 32 then
        some (if (full_reply z ⟨id, rd, heard name, qtype, CLASS_IN⟩).length ≤ MAX_REPLY then
          ((z.answer (heard name) qtype).getD []).map Record.wireData else [])
      else none := by
  by_cases hcount : name.length ≤ 32
  · have hq := parse_query_question id rd name qtype
    rw [if_pos hcount] at hq
    have hreply := handle_of_query (z := z) hq
    obtain ⟨q, flags, records, hq', hencode, hfits, hsent⟩ := handle_encode hreply
    obtain rfl : q = ⟨id, rd, heard name, qtype, CLASS_IN⟩ := Option.some.inj (hq'.symm.trans hq)
    rw [lookup, hreply, hencode]
    simp only [Option.bind_eq_bind, Option.bind_some, Dns.decode_encode _ hfits, if_pos hcount]
    split_ifs at hsent ⊢
    · rw [hsent.2]
      simp [replyMessage, Record.wire]
    · rw [hsent.2]
      rfl
  · have hq := parse_query_question id rd name qtype
    rw [if_neg hcount] at hq
    rw [lookup, handle, hq, if_neg hcount]
    rfl

theorem lookup_of_fit {z : Zone} {domain : Str} (hfit : RepliesFit z domain) {name : Dns.Name}
    {qtype : UInt16} (hasked : AskedAlong z domain name qtype) (hlen : name.length ≤ 32)
    (txid : UInt16) (rd : Bool) : lookup z txid rd name qtype =
      some (((z.answer (heard name) qtype).getD []).map Record.wireData) := by
  have hquery := parse_query_question txid rd name qtype
  rw [if_pos hlen] at hquery
  rw [lookup_eq, if_pos hlen, if_pos (hfit name qtype hasked txid rd _ hquery)]

-- What is decoded is what the zone has for the name as it was heard.
theorem found_of_lookup {z : Zone} {txid : UInt16} {rd : Bool} {name : Dns.Name} {qtype : UInt16}
    {data : List Dns.RData} {d : Dns.RData} (h : lookup z txid rd name qtype = some data)
    (hd : d ∈ data) : name.length ≤ 32 ∧
      ∃ r ∈ (z.answer (heard name) qtype).getD [], r.wireData = d := by
  rw [lookup_eq] at h
  split_ifs at h with hlen hfit
  · obtain rfl := Option.some.inj h
    exact ⟨hlen, List.mem_map.mp hd⟩
  · obtain rfl := Option.some.inj h
    cases hd

end Client

section Zone

theorem trim_domain {domain : Str} (h : WellLabelled domain) : domain.trim_matches '.' = domain := by
  apply Str.trim_matches_eq_self
  · intro hhead
    obtain ⟨rest, rfl⟩ := List.head?_eq_some_iff.mp hhead
    have := h [] (by rw [Split.cons_self]; exact List.mem_cons_self)
    exact absurd this.1 (by decide)
  · intro hlast
    obtain ⟨before, rfl⟩ := List.getLast?_eq_some_iff.mp hlast
    have := h [] (by rw [List.splitOn_append_cons_self]; simp)
    exact absurd this.1 (by decide)

theorem Zone.new_eq {domain id : Str} (hdomain : WellLabelled domain) (hid : 8 ≤ id.len) (inst : Str)
    (port : UInt16) (address : Ipv4Addr) (clients : Ipv4Addr × UInt8) :
    Zone.new domain inst id port address clients = (id.slice_to 8).map fun short => {
      domain := domain.to_ascii_lowercase
      browse := "_altserver._tcp.".toList ++ domain.to_ascii_lowercase
      inst := inst.to_ascii_lowercase ++ "._altserver._tcp.".toList ++ domain.to_ascii_lowercase
      host := "altkeeper-".toList ++ short.to_ascii_lowercase ++ ".".toList ++ domain.to_ascii_lowercase
      server_id := id
      port
      address
      clients } := by
  rw [Zone.new, trim_domain hdomain, Nat.min_eq_right hid]
  cases id.slice_to 8 <;> rfl

-- A name that does not begin as a request for browsing domains does.
theorem answer_of_head {z : Zone} {c : Char} {rest : Str} (hb : c ≠ 'b') (hd : c ≠ 'd') (hl : c ≠ 'l')
    (qtype : UInt16) : z.answer (c :: rest) qtype =
      let want (t : UInt16) : Bool := qtype == t || qtype == TYPE_ANY
      if c :: rest = z.browse then
        some (if want TYPE_PTR then [.Ptr (c :: rest) z.inst] else [])
      else if c :: rest = z.inst then
        some ((if want TYPE_SRV then [.Srv (c :: rest) z.port z.host] else []) ++
          (if want TYPE_TXT then [.Txt (c :: rest) ("serverID=".toList ++ z.server_id)] else []))
      else if c :: rest = z.host then
        some (if want TYPE_A then [.A (c :: rest) z.address] else [])
      else none := by
  have hbrowsing : (["b", "db", "lb"].findSome? fun p =>
      (c :: rest : Str).dropPrefix? (p.toList ++ "._dns-sd._udp.".toList)) = none := by
    simp [List.findSome?, List.dropPrefix?, hb, hd, hl]
  unfold Zone.answer
  rw [hbrowsing]
  rfl

-- The names of a zone can be told apart, whatever they are made of.
structure Zone.Distinct (z : Zone) : Prop where
  browse : ∃ rest, z.browse = '_' :: rest
  inst : ∃ rest, z.inst = 'a' :: rest
  host : ∃ rest, z.host = 'a' :: rest
  host_ne : z.host ≠ z.inst

variable {z : Zone} (hz : z.Distinct)
include hz

theorem answer_browse : z.answer z.browse TYPE_PTR = some [.Ptr z.browse z.inst] := by
  obtain ⟨rest, hrest⟩ := hz.browse
  rw [hrest, answer_of_head (by decide) (by decide) (by decide), if_pos hrest.symm]
  rfl

theorem answer_inst (qtype : UInt16) : z.answer z.inst qtype =
    some ((if qtype == TYPE_SRV || qtype == TYPE_ANY then [.Srv z.inst z.port z.host] else []) ++
      if qtype == TYPE_TXT || qtype == TYPE_ANY then
        [.Txt z.inst ("serverID=".toList ++ z.server_id)] else []) := by
  obtain ⟨rest, hrest⟩ := hz.inst
  obtain ⟨rest', hrest'⟩ := hz.browse
  have hne : 'a' :: rest ≠ z.browse := by simp [hrest']
  rw [hrest, answer_of_head (by decide) (by decide) (by decide)]
  simp only [if_neg hne, hrest, if_true]

theorem answer_host : z.answer z.host TYPE_A = some [.A z.host z.address] := by
  obtain ⟨rest, hrest⟩ := hz.host
  obtain ⟨rest', hrest'⟩ := hz.browse
  have hne : 'a' :: rest ≠ z.browse := by simp [hrest']
  have hinst : 'a' :: rest ≠ z.inst := fun h => hz.host_ne (hrest.trans h)
  rw [hrest, answer_of_head (by decide) (by decide) (by decide)]
  simp only [if_neg hne, if_neg hinst, hrest, if_true]
  rfl

omit hz in
theorem name_of_srv {name owner target : Str} {qtype port : UInt16}
    (h : Record.Srv owner port target ∈ (z.answer name qtype).getD []) :
    name = z.inst ∧ target = z.host := by
  cases hanswer : z.answer name qtype with
  | none => simp [hanswer] at h
  | some records =>
      rw [hanswer] at h
      rcases z.answer_cases hanswer with ⟨p, -, rest, -, -, hr⟩ | ⟨-, hr⟩ | ⟨hname, hr⟩ | ⟨-, hr⟩
      · cases hr _ h
      · cases hr _ h
      · rcases hr _ h with h | h <;> cases h
        exact ⟨hname, rfl⟩
      · cases hr _ h

omit hz in
theorem name_of_a {name owner : Str} {qtype : UInt16} {address : Ipv4Addr}
    (h : Record.A owner address ∈ (z.answer name qtype).getD []) : name = z.host := by
  cases hanswer : z.answer name qtype with
  | none => simp [hanswer] at h
  | some records =>
      rw [hanswer] at h
      rcases z.answer_cases hanswer with ⟨p, -, rest, -, -, hr⟩ | ⟨-, hr⟩ | ⟨-, hr⟩ | ⟨hname, -⟩
      · cases hr _ h
      · cases hr _ h
      · rcases hr _ h with h | h <;> cases h
      · exact hname

section Asked

variable {domain : Str} (hbrowse : z.browse =
    Str.to_ascii_lowercase ("_altserver._tcp.".toList ++ domain)) (hdomain : WellLabelled domain)
include hbrowse hdomain

omit hz in
-- The first question is heard as the name that the zone has, whatever its letters.
theorem heard_service {asked : Str} (hasked : asked.to_ascii_lowercase =
    Str.to_ascii_lowercase ("_altserver._tcp.".toList ++ domain)) :
    (wireName asked).length = 2 + (domain.splitOn '.').length ∧ heard (wireName asked) = z.browse := by
  have hsplit : "_altserver._tcp.".toList ++ domain =
      "_altserver".toList ++ '.' :: ("_tcp".toList ++ '.' :: domain) := by simp
  have hlabels : WellLabelled asked := by
    rw [← wellLabelled_to_ascii_lowercase, hasked, wellLabelled_to_ascii_lowercase, hsplit,
      wellLabelled_cons (by decide), wellLabelled_cons (by decide)]
    exact ⟨by decide, by decide, hdomain⟩
  have hlen := congrArg List.length (Str.splitOn_to_ascii_lowercase asked)
  rw [hasked, Str.splitOn_to_ascii_lowercase, hsplit,
    List.splitOn_append_cons_self_of_not_mem (by decide),
    List.splitOn_append_cons_self_of_not_mem (by decide)] at hlen
  simp only [List.length_map, List.length_cons] at hlen
  rw [length_wireName hlabels, heard_wireName hlabels, hasked, hbrowse]
  exact ⟨by omega, rfl⟩

-- A client asks for the service, and then for the zone's two names as they were written.
theorem asked_cases {name : Dns.Name} {qtype : UInt16} (h : AskedAlong z domain name qtype) :
    (heard name = z.browse ∧ qtype = TYPE_PTR) ∨
    (name = wireName z.inst ∧ (qtype = TYPE_SRV ∨ qtype = TYPE_TXT)) ∨
    (name = wireName z.host ∧ qtype = TYPE_A) := by
  induction h with
  | browse service => exact .inl ⟨(heard_service hbrowse hdomain service).2, rfl⟩
  | @inst name inst txid rd qtype data before answer named either ih =>
      obtain ⟨hheard, -⟩ | ⟨-, hsrv | htxt⟩ | ⟨-, ha⟩ := ih
      · obtain ⟨-, r, hr, hdata⟩ := found_of_lookup answer named
        rw [hheard, answer_browse hz, Option.getD_some, List.mem_singleton] at hr
        rw [hr] at hdata
        cases hdata
        exact .inr (.inl ⟨rfl, either⟩)
      · exact absurd hsrv (by decide)
      · exact absurd htxt (by decide)
      · exact absurd ha (by decide)
  | @host name host txid rd priority weight port data before answer named ih =>
      obtain ⟨-, r, hr, hdata⟩ := found_of_lookup answer named
      cases r with
      | Srv owner port target =>
          cases hdata
          rw [(name_of_srv hr).2]
          exact .inr (.inr ⟨rfl, rfl⟩)
      | A | Ptr | Txt => cases hdata

-- The replies that a client can ask for, measured on the names as they are heard.
theorem repliesFit_of (h : ∀ p ∈ [(z.browse, TYPE_PTR), (heard (wireName z.inst), TYPE_SRV),
    (heard (wireName z.inst), TYPE_TXT), (heard (wireName z.host), TYPE_A)],
      replyLength z p.1 p.2 ≤ MAX_REPLY) : RepliesFit z domain := by
  intro name qtype hasked txid rd q hq
  have hquery := parse_query_question txid rd name qtype
  rw [hq] at hquery
  split_ifs at hquery
  obtain rfl := Option.some.inj hquery
  rw [length_full_reply]
  apply h (heard name, qtype)
  obtain ⟨hheard, rfl⟩ | ⟨rfl, rfl | rfl⟩ | ⟨rfl, rfl⟩ := asked_cases hz hbrowse hdomain hasked
  · rw [hheard]
    simp
  all_goals simp

-- The chain closes exactly when the two names that travel come back as they were published, and
-- the text is not cut.
theorem chainCloses_iff (hcount : (domain.splitOn '.').length ≤ 28) (hfit : RepliesFit z domain) :
    ChainCloses z domain z.server_id z.port z.address ↔
      Survives z.inst ∧ Survives z.host ∧ z.server_id.len ≤ 246 := by
  have hserver : Str.len ("serverID=".toList ++ z.server_id) = 9 + z.server_id.len := by
    rw [Str.len_append]
    rfl
  -- what the zone says to each question, as far as the names come back
  have hptr : ∀ txid rd asked, asked.to_ascii_lowercase =
      Str.to_ascii_lowercase ("_altserver._tcp.".toList ++ domain) →
      lookup z txid rd (wireName asked) TYPE_PTR = some [.ptr (wireName z.inst)] := by
    intro txid rd asked hlower
    obtain ⟨hlen, hheard⟩ := heard_service hbrowse hdomain hlower
    rw [lookup_of_fit hfit (.browse hlower) (by omega), hheard, answer_browse hz]
    rfl
  have hasked : ∀ qtype, qtype = TYPE_SRV ∨ qtype = TYPE_TXT →
      AskedAlong z domain (wireName z.inst) qtype := fun qtype either =>
    .inst (.browse rfl) (hptr 0 false _ rfl) (List.mem_singleton_self _) either
  have hsrv : Survives z.inst → ∀ txid rd, lookup z txid rd (wireName z.inst) TYPE_SRV =
      some [.srv 0 0 z.port (wireName z.host)] := by
    rintro ⟨hlen, hheard⟩ txid rd
    rw [lookup_of_fit hfit (hasked _ (.inl rfl)) hlen, hheard, answer_inst hz]
    rfl
  have htxt : Survives z.inst → ∀ txid rd, lookup z txid rd (wireName z.inst) TYPE_TXT =
      some [.txt (wireText ("serverID=".toList ++ z.server_id)) []] := by
    rintro ⟨hlen, hheard⟩ txid rd
    rw [lookup_of_fit hfit (hasked _ (.inr rfl)) hlen, hheard, answer_inst hz]
    rfl
  constructor
  · intro hcloses
    obtain ⟨inst, host, priority, weight, text, o₁, o₂, o₃, o₄, hptr', hsrv', htxt', htext, ha, -⟩ :=
      hcloses 0 false _ rfl
    obtain rfl : inst = wireName z.inst := by
      rw [hptr 0 false _ rfl] at hptr'
      cases hptr'
      rfl
    have hinst : Survives z.inst := by
      obtain ⟨hlen, r, hr, hdata⟩ := found_of_lookup hsrv' (List.mem_singleton_self _)
      cases r with
      | Srv owner port target => exact ⟨hlen, (name_of_srv hr).1⟩
      | A | Ptr | Txt => cases hdata
    obtain rfl : host = wireName z.host := by
      rw [hsrv hinst 0 false] at hsrv'
      cases hsrv'
      rfl
    have hhost : Survives z.host := by
      obtain ⟨hlen, r, hr, hdata⟩ := found_of_lookup ha (List.mem_singleton_self _)
      cases r with
      | A owner address => exact ⟨hlen, name_of_a hr⟩
      | Srv | Ptr | Txt => cases hdata
    refine ⟨hinst, hhost, ?_⟩
    rw [htxt hinst 0 false] at htxt'
    cases htxt'
    have hlen := congrArg List.length htext
    rw [wireText, List.length_take] at hlen
    unfold Str.len at hserver ⊢
    omega
  · rintro ⟨hinst, ⟨hlen, hheard⟩, htext⟩ txid rd asked hlower
    obtain ⟨o₁, o₂, o₃, o₄, hfour⟩ := z.address.exists_octets
    refine ⟨wireName z.inst, wireName z.host, 0, 0, wireText ("serverID=".toList ++ z.server_id),
      o₁, o₂, o₃, o₄, hptr txid rd asked hlower, hsrv hinst txid rd, htxt hinst txid rd, ?_, ?_, hfour⟩
    · exact List.take_of_length_le (by unfold Str.len at hserver htext; omega)
    · have hhost : AskedAlong z domain (wireName z.host) TYPE_A :=
        .host (hasked _ (.inl rfl)) (hsrv hinst 0 false) (List.mem_singleton_self _)
      rw [lookup_of_fit hfit hhost hlen, hheard, answer_host hz]
      simp [Record.wireData, hfour]

end Asked

end Zone

section Discovery

-- The host name, as the first label of the instance, is not altered by its cut at 63 bytes.
def HostSurvives (host : Str) : Prop :=
  host.len ≤ 53 ∨ ∃ kept, host = kept ++ [Utf8.REPLACEMENT] ∧ Str.len kept ≤ 52

-- The host's own name, `altkeeper-` with the first eight bytes of the id, has no empty label and
-- no more labels than a query may have.
def ShortSurvives (short domain : Str) : Prop :=
  [] ∉ ("altkeeper-".toList ++ short).splitOn '.' ∧
    (("altkeeper-".toList ++ short).splitOn '.').length + (domain.splitOn '.').length ≤ 32

theorem labelSurvives_host {host : Str} (hne : host ≠ []) :
    LabelSurvives ("altkeeper-".toList ++ host.to_ascii_lowercase) ↔ HostSurvives host := by
  have hlen : ∀ s : Str, Str.len ("altkeeper-".toList ++ s.to_ascii_lowercase) = 10 + s.len := by
    intro s
    rw [Str.len_append, Str.len_to_ascii_lowercase]
    rfl
  unfold LabelSurvives HostSurvives
  rw [hlen]
  refine or_congr (by omega) ⟨?_, ?_⟩
  · rintro ⟨kept, heq, hkept⟩
    obtain ⟨before, last, rfl⟩ := (List.eq_nil_or_concat host).resolve_left hne
    rw [List.concat_eq_append, Str.to_ascii_lowercase_append, ← List.append_assoc] at heq
    obtain ⟨rfl, hlast⟩ := List.append_inj' heq rfl
    rw [hlen] at hkept
    obtain ⟨hlast, -⟩ := List.cons.inj hlast
    rw [Str.toLower_eq_iff (by decide) (by decide)] at hlast
    exact ⟨before, by rw [List.concat_eq_append, hlast], by omega⟩
  · rintro ⟨kept, rfl, hkept⟩
    refine ⟨"altkeeper-".toList ++ Str.to_ascii_lowercase kept, ?_, ?_⟩
    · rw [Str.to_ascii_lowercase_append, List.append_assoc]
      rfl
    · rw [hlen]
      omega

variable {domain host : Str} (hdomain : WellLabelled domain) (hcount : (domain.splitOn '.').length ≤ 28)
include hdomain hcount

theorem survives_instance (hhost : host ≠ []) (hdot : '.' ∉ host) :
    Survives (Str.to_ascii_lowercase ("altkeeper-".toList ++ host) ++ "._altserver._tcp.".toList ++
      domain.to_ascii_lowercase) ↔ HostSurvives host := by
  have hlower : Str.to_ascii_lowercase ("altkeeper-".toList ++ host) =
      "altkeeper-".toList ++ host.to_ascii_lowercase := by
    rw [Str.to_ascii_lowercase_append]
    rfl
  have hsplit : Str.to_ascii_lowercase ("altkeeper-".toList ++ host) ++ "._altserver._tcp.".toList ++
      domain.to_ascii_lowercase = Str.to_ascii_lowercase ("altkeeper-".toList ++ host) ++
        '.' :: ("_altserver".toList ++ '.' :: ("_tcp".toList ++ '.' :: domain.to_ascii_lowercase)) := by
    simp
  have hnodot : '.' ∉ Str.to_ascii_lowercase ("altkeeper-".toList ++ host) := by
    intro hmem
    obtain ⟨c, hc, hlow⟩ := List.mem_map.mp hmem
    rw [Str.toLower_eq_iff (by decide) (by decide)] at hlow
    subst hlow
    rcases List.mem_append.mp hc with hc | hc
    · exact absurd hc (by decide)
    · exact hdot hc
  have hrest : WellLabelled ("_altserver".toList ++ '.' :: ("_tcp".toList ++ '.' ::
      domain.to_ascii_lowercase)) := by
    rw [wellLabelled_cons (by decide), wellLabelled_cons (by decide), wellLabelled_to_ascii_lowercase]
    exact ⟨by decide, by decide, hdomain⟩
  have hrestLower : Str.to_ascii_lowercase ("_altserver".toList ++ '.' :: ("_tcp".toList ++ '.' ::
      domain.to_ascii_lowercase)) =
      "_altserver".toList ++ '.' :: ("_tcp".toList ++ '.' :: domain.to_ascii_lowercase) :=
    Str.to_ascii_lowercase_idem ("_altserver".toList ++ '.' :: ("_tcp".toList ++ '.' :: domain))
  rw [hsplit, survives_cons_iff (by rw [hlower]; simp) hnodot (Str.to_ascii_lowercase_idem _) hrest
    hrestLower, hlower, labelSurvives_host hhost, List.splitOn_append_cons_self_of_not_mem (by decide),
    List.splitOn_append_cons_self_of_not_mem (by decide), Str.splitOn_to_ascii_lowercase]
  simp only [List.length_cons, List.length_map]
  exact and_iff_right (by omega)

omit hcount in
theorem survives_host {short : Str} (hshort : short.len = 8) :
    Survives ("altkeeper-".toList ++ short.to_ascii_lowercase ++ ".".toList ++
      domain.to_ascii_lowercase) ↔ ShortSurvives short domain := by
  have hlower : "altkeeper-".toList ++ short.to_ascii_lowercase =
      Str.to_ascii_lowercase ("altkeeper-".toList ++ short) := by
    rw [Str.to_ascii_lowercase_append]
    rfl
  have hsplit : "altkeeper-".toList ++ short.to_ascii_lowercase ++ ".".toList ++
      domain.to_ascii_lowercase =
      Str.to_ascii_lowercase ("altkeeper-".toList ++ short) ++ '.' :: domain.to_ascii_lowercase := by
    rw [hlower]
    simp
  have hlen : ∀ label ∈ (Str.to_ascii_lowercase ("altkeeper-".toList ++ short)).splitOn '.',
      Str.len label ≤ 63 := by
    intro label hlabel
    have hle := Str.len_le_of_mem_splitOn hlabel
    rw [Str.len_to_ascii_lowercase, Str.len_append, hshort] at hle
    exact Nat.le_trans hle (by decide)
  have hne : ∃ label ∈ (Str.to_ascii_lowercase ("altkeeper-".toList ++ short)).splitOn '.', label ≠ [] := by
    rw [← hlower]
    obtain ⟨piece, pieces, -, hcons⟩ :=
      Split.cons_ne (show 'a' ≠ '.' by decide) ("ltkeeper-".toList ++ short.to_ascii_lowercase)
    exact ⟨'a' :: piece, by
      show 'a' :: piece ∈ List.splitOn '.' ('a' :: ("ltkeeper-".toList ++ short.to_ascii_lowercase))
      rw [hcons]
      exact List.mem_cons_self, by simp⟩
  rw [hsplit, survives_append_iff hlen hne (Str.to_ascii_lowercase_idem _)
    (wellLabelled_to_ascii_lowercase.mpr hdomain) (Str.to_ascii_lowercase_idem _)]
  simp only [Str.splitOn_to_ascii_lowercase, List.length_map, ShortSurvives]
  have hnil : [] ∈ (("altkeeper-".toList ++ short).splitOn '.').map Str.to_ascii_lowercase ↔
      [] ∈ ("altkeeper-".toList ++ short).splitOn '.' := by
    rw [List.mem_map]
    constructor
    · rintro ⟨label, hlabel, heq⟩
      rwa [List.map_eq_nil_iff.mp heq] at hlabel
    · exact fun hmem => ⟨[], hmem, rfl⟩
  rw [hnil]
  exact and_comm

-- The chain of a zone that was built, when its replies fit.
theorem zone_closes_iff {id short : Str} {port : UInt16} {address : Ipv4Addr}
    {clients : Ipv4Addr × UInt8} {z : Zone} (hhost : host ≠ []) (hdot : '.' ∉ host)
    (hid : 8 ≤ id.len) (hslice : id.slice_to 8 = some short)
    (hnew : Zone.new domain ("altkeeper-".toList ++ host) id port address clients = some z)
    (hfit : RepliesFit z domain) :
    ChainCloses z domain id port address ↔
      id.len ≤ 246 ∧ HostSurvives host ∧ ShortSurvives short domain := by
  have hshort := Str.slice_to_len hslice
  rw [Zone.new_eq hdomain hid, hslice] at hnew
  obtain rfl := Option.some.inj hnew
  have hz : Zone.Distinct {
      domain := domain.to_ascii_lowercase
      browse := "_altserver._tcp.".toList ++ domain.to_ascii_lowercase
      inst := Str.to_ascii_lowercase ("altkeeper-".toList ++ host) ++
        "._altserver._tcp.".toList ++ domain.to_ascii_lowercase
      host := "altkeeper-".toList ++ short.to_ascii_lowercase ++ ".".toList ++
        domain.to_ascii_lowercase
      server_id := id
      port
      address
      clients } := by
    refine ⟨⟨_, rfl⟩, ⟨_, rfl⟩, ⟨_, rfl⟩, fun heq => ?_⟩
    have hlen := congrArg List.length heq
    have hle : short.length ≤ 8 := hshort ▸ Utf8.length_le_encode short
    simp only [List.length_append, Str.length_to_ascii_lowercase] at hlen
    have h1 : ".".toList.length = 1 := rfl
    have h2 : "._altserver._tcp.".toList.length = 17 := rfl
    omega
  have hbrowse : "_altserver._tcp.".toList ++ domain.to_ascii_lowercase =
      Str.to_ascii_lowercase ("_altserver._tcp.".toList ++ domain) := by
    rw [Str.to_ascii_lowercase_append]
    rfl
  have hiff := chainCloses_iff hz hbrowse hdomain hcount hfit
  simp only [survives_instance hdomain hcount hhost hdot, survives_host hdomain hshort] at hiff
  rw [hiff]
  constructor
  · rintro ⟨hinst, hhost, htext⟩
    exact ⟨htext, hinst, hhost⟩
  · rintro ⟨htext, hinst, hhost⟩
    exact ⟨hinst, hhost, htext⟩

-- The same with the names that the program gives itself.
theorem published_closes_iff {stdout : Option Octets} {stored : Option Str}
    {urandom : Except Str { bytes : Octets // bytes.length = 16 }} {save : Except Str Unit}
    {id short : Str} {port : UInt16} {address : Ipv4Addr} {clients : Ipv4Addr × UInt8} {z : Zone}
    (hid : AltServer.server_id stored (urandom.map (·.1)) save = .ok id)
    (hslice : id.slice_to 8 = some short)
    (hnew : Zone.new domain (AltServer.instance_name stdout) id port address clients = some z)
    (hfit : RepliesFit z domain) :
    ChainCloses z domain id port address ↔
      id.len ≤ 246 ∧ HostSurvives (AltServer.hostname stdout) ∧ ShortSurvives short domain := by
  obtain ⟨hhost, hdot⟩ := AltServer.hostname_spec stdout
  refine zone_closes_iff hdomain hcount hhost hdot (AltServer.server_id_spec ?_ hid) hslice hnew hfit
  intro bytes hbytes
  cases urandom with
  | error e => cases hbytes
  | ok drawn =>
      cases hbytes
      exact drawn.2

omit hdomain hcount in
-- A client that follows the published names reaches the server, for the zones whose replies fit,
-- exactly when these conditions on the id and the host name hold.
theorem discovery_closes_iff (domain host id : Str) (port : UInt16) (address : Ipv4Addr)
    (clients : Ipv4Addr × UInt8) (hdomain : WellLabelled domain)
    (hcount : (domain.splitOn '.').length ≤ 28) (hhost : host ≠ []) (hdot : '.' ∉ host)
    (hid : 8 ≤ id.len) :
    (∃ z, Zone.new domain ("altkeeper-".toList ++ host) id port address clients = some z ∧
        (RepliesFit z domain → ChainCloses z domain id port address)) ↔
      ∃ short, id.slice_to 8 = some short ∧
        ((∀ z, Zone.new domain ("altkeeper-".toList ++ host) id port address clients = some z →
            RepliesFit z domain) →
          id.len ≤ 246 ∧ HostSurvives host ∧ ShortSurvives short domain) := by
  constructor
  · rintro ⟨z, hnew, hcloses⟩
    have hnew' := hnew
    rw [Zone.new_eq hdomain hid] at hnew'
    obtain ⟨short, hslice, -⟩ := Option.map_eq_some_iff.mp hnew'
    refine ⟨short, hslice, fun hfit => ?_⟩
    have hfit := hfit z hnew
    exact (zone_closes_iff hdomain hcount hhost hdot hid hslice hnew hfit).mp (hcloses hfit)
  · rintro ⟨short, hslice, hsurvive⟩
    obtain ⟨z, hnew⟩ : ∃ z, Zone.new domain ("altkeeper-".toList ++ host) id port address clients =
        some z := by
      rw [Zone.new_eq hdomain hid, hslice]
      exact ⟨_, rfl⟩
    refine ⟨z, hnew, fun hfit => ?_⟩
    refine (zone_closes_iff hdomain hcount hhost hdot hid hslice hnew hfit).mpr (hsurvive ?_)
    intro z' hnew'
    rw [hnew] at hnew'
    cases hnew'
    exact hfit

-- The zone of the source's tests, on a computer of another name, with this id.
def zonaOf (host id : Str) : Zone :=
  { zona with
    inst := "altkeeper-".toList ++ host ++ "._altserver._tcp.casa.internal".toList
    server_id := id }

def shouted_id : Str := "8E68E3C9e57288e9f7260efb6ea76c93".toList

omit hdomain hcount in
theorem zonaOf_fits {host id : Str} (hne : zona.host ≠ (zonaOf host id).inst)
    (h : ∀ p ∈ [(zona.browse, TYPE_PTR), (heard (wireName (zonaOf host id).inst), TYPE_SRV),
      (heard (wireName (zonaOf host id).inst), TYPE_TXT), (heard (wireName zona.host), TYPE_A)],
      replyLength (zonaOf host id) p.1 p.2 ≤ MAX_REPLY) :
    RepliesFit (zonaOf host id) "casa.internal".toList :=
  repliesFit_of ⟨⟨_, rfl⟩, ⟨_, rfl⟩, ⟨_, rfl⟩, hne⟩ (show zona.browse = _ by decide)
    (by unfold WellLabelled; decide) h

omit hdomain hcount in
theorem discovery_closes_casa :
    Zone.new "casa.internal".toList ("altkeeper-".toList ++ "casa2".toList) shouted_id 49500
        zona.address zona.clients = some (zonaOf "casa2".toList shouted_id) ∧
      RepliesFit (zonaOf "casa2".toList shouted_id) "casa.internal".toList ∧
      ChainCloses (zonaOf "casa2".toList shouted_id) "casa.internal".toList shouted_id 49500
        zona.address := by
  have hfit : RepliesFit (zonaOf "casa2".toList shouted_id) "casa.internal".toList :=
    zonaOf_fits (by decide) (by decide +kernel)
  have hnew : Zone.new "casa.internal".toList ("altkeeper-".toList ++ "casa2".toList) shouted_id 49500
      zona.address zona.clients = some (zonaOf "casa2".toList shouted_id) := by decide
  obtain ⟨z, hz, hcloses⟩ := (discovery_closes_iff "casa.internal".toList "casa2".toList shouted_id
    49500 zona.address zona.clients (by unfold WellLabelled; decide) (by decide) (by decide)
    (by decide) (by decide)).mpr ⟨"8E68E3C9".toList, by decide, fun _ => ⟨by decide,
      .inl (by decide), by unfold ShortSurvives; decide⟩⟩
  obtain rfl := Option.some.inj (hnew.symm.trans hz)
  exact ⟨hnew, hfit, hcloses hfit⟩

omit hdomain hcount in
-- A host name of 54 bytes: the instance is cut to another name, which the server does not know.
theorem discovery_breaks_long_host :
    AltServer.stored_id "8e68e3c9e57288e9f7260efb6ea76c93\n".toList =
        some "8e68e3c9e57288e9f7260efb6ea76c93".toList ∧
      Zone.new "casa.internal".toList ("altkeeper-".toList ++ List.replicate 54 'a')
          "8e68e3c9e57288e9f7260efb6ea76c93".toList 49500 zona.address zona.clients =
        some (zonaOf (List.replicate 54 'a') zona.server_id) ∧
      RepliesFit (zonaOf (List.replicate 54 'a') zona.server_id) "casa.internal".toList ∧
      ¬ ChainCloses (zonaOf (List.replicate 54 'a') zona.server_id) "casa.internal".toList
          "8e68e3c9e57288e9f7260efb6ea76c93".toList 49500 zona.address := by
  have hnew : Zone.new "casa.internal".toList ("altkeeper-".toList ++ List.replicate 54 'a')
      "8e68e3c9e57288e9f7260efb6ea76c93".toList 49500 zona.address zona.clients =
      some (zonaOf (List.replicate 54 'a') zona.server_id) := by decide
  have hfit : RepliesFit (zonaOf (List.replicate 54 'a') zona.server_id) "casa.internal".toList :=
    zonaOf_fits (by decide) (by decide +kernel)
  refine ⟨by decide, hnew, hfit, fun hcloses => ?_⟩
  have hsurvive := (zone_closes_iff (by unfold WellLabelled; decide) (by decide) (by decide)
    (by decide) (by decide) (show _ = some "8e68e3c9".toList by decide) hnew hfit).mp hcloses
  rcases hsurvive.2.1 with hlen | ⟨kept, heq, -⟩
  · exact absurd hlen (by decide)
  · have hmem : Utf8.REPLACEMENT ∈ List.replicate 54 'a' := heq ▸ by simp
    exact absurd (List.eq_of_mem_replicate hmem) (by decide)

end Discovery

end AltKeeper.Dnssd
