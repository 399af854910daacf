import AltKeeper.Dnssd.Wire
import AltKeeper.Dnssd.Reading
import Mathlib.Data.List.Forall2

namespace AltKeeper.Dnssd

section Names

-- Every label between the dots can be written on the wire as it is.
def WellLabelled (name : Str) : Prop :=
  ∀ label ∈ name.splitOn '.', 1 ≤ Str.len label ∧ Str.len label ≤ 63

-- The labels of `wire` are, byte for byte, what stands between the dots of `name`.
def Spells (wire : Dns.Name) (name : Str) : Prop :=
  wire.map (·.1) = (name.splitOn '.').map Utf8.encode

theorem spells_wireName {name : Str} (h : WellLabelled name) : Spells (wireName name) name := by
  unfold Spells wireName
  unfold WellLabelled at h
  generalize name.splitOn '.' = labels at h ⊢
  induction labels with
  | nil => rfl
  | cons label labels ih =>
      obtain ⟨hmin, hmax⟩ := h label List.mem_cons_self
      have hne : label ≠ [] := by
        rintro rfl
        exact absurd hmin (by decide)
      obtain ⟨hbytes, hwire⟩ := wireLabel?_of_ne hne
      rw [List.filterMap_cons, hwire, List.map_cons, List.map_cons,
        ih fun label hlabel => h label (List.mem_cons_of_mem _ hlabel)]
      simp only [List.take_of_length_le hmax]

theorem wellLabelled_cons {label rest : Str} (hdot : '.' ∉ label) :
    WellLabelled (label ++ '.' :: rest) ↔ (1 ≤ label.len ∧ label.len ≤ 63) ∧ WellLabelled rest := by
  unfold WellLabelled
  rw [List.splitOn_append_cons_self_of_not_mem hdot, List.forall_mem_cons]

theorem wellLabelled_append {name rest : Str} :
    WellLabelled (name ++ '.' :: rest) ↔ WellLabelled name ∧ WellLabelled rest := by
  unfold WellLabelled
  rw [List.splitOn_append_cons_self, List.forall_mem_append]

end Names

section Records

-- The names and the TXT text of a zone can be written on the wire as they are.
structure Zone.Publishable (z : Zone) : Prop where
  domain : WellLabelled z.domain
  browse : WellLabelled z.browse
  inst : WellLabelled z.inst
  host : WellLabelled z.host
  text : Str.len ("serverID=".toList ++ z.server_id) ≤ 255

def Record.Publishable (r : Record) : Prop :=
  WellLabelled r.owner ∧
    match r with
    | .A .. => True
    | .Ptr _ target => WellLabelled target
    | .Txt _ text => text.len ≤ 255
    | .Srv _ _ target => WellLabelled target

-- A record on the wire says what a record of the zone says.
def Carries (wire : Dns.Record) (r : Record) : Prop :=
  Spells wire.name r.owner ∧ wire.rclass = CLASS_IN ∧ wire.ttl = TTL ∧
    match r, wire.data with
    | .A _ address, .a o₁ o₂ o₃ o₄ => address.octets = [o₁, o₂, o₃, o₄]
    | .Ptr _ target, .ptr wireTarget => Spells wireTarget target
    | .Txt _ text, .txt first rest => first.1 = Utf8.encode text ∧ rest = []
    | .Srv _ port target, .srv priority weight wirePort wireTarget =>
        priority = 0 ∧ weight = 0 ∧ wirePort = port ∧ Spells wireTarget target
    | _, _ => False

theorem carries_wire {r : Record} (h : r.Publishable) : Carries r.wire r := by
  refine ⟨spells_wireName h.1, rfl, rfl, ?_⟩
  cases r with
  | A name address =>
      obtain ⟨o₁, o₂, o₃, o₄, hfour⟩ := address.exists_octets
      simp [Record.wire, Record.wireData, hfour]
  | Ptr name target => exact spells_wireName h.2
  | Txt name text => exact ⟨List.take_of_length_le h.2, rfl⟩
  | Srv name port target => exact ⟨rfl, rfl, rfl, spells_wireName h.2⟩

-- A reversed address is spelled with digits and plus signs, so reading its labels from the wire
-- cannot have made them longer than they were there.
theorem wellLabelled_reverse {rev : Str} (hparse : ∀ part ∈ rev.splitOn '.', (Str.parse_u8 part).isSome)
    (hlength : ∀ part ∈ rev.splitOn '.', part.length ≤ 63) : WellLabelled rev := by
  intro part hpart
  obtain ⟨hne, hascii⟩ := parse_u8_ascii (hparse part hpart)
  have hlen : Str.len part = part.length := Utf8.length_encode_ascii hascii
  have hpos := List.length_pos_of_ne_nil hne
  have := hlength part hpart
  omega

theorem answer_publishable {z : Zone} (hz : z.Publishable) {name : Str} {qtype : UInt16}
    {records : List Record} (hlength : ∀ label ∈ name.splitOn '.', label.length ≤ 63)
    (h : z.answer name qtype = some records) : ∀ r ∈ records, r.Publishable := by
  rcases z.answer_cases h with ⟨p, hp, rest, hname, hrest, hptr⟩ | ⟨rfl, hptr⟩ | ⟨rfl, hrs⟩ | ⟨rfl, ha⟩
  · have hdot : '.' ∉ p.toList ∧ 1 ≤ Str.len p.toList ∧ Str.len p.toList ≤ 63 := by
      simp only [List.mem_cons, List.not_mem_nil, or_false] at hp
      rcases hp with rfl | rfl | rfl <;> decide
    have hsplit : name = p.toList ++ '.' :: ("_dns-sd".toList ++ '.' :: ("_udp".toList ++ '.' :: rest)) := by
      rw [hname]
      simp
    have hlabels : WellLabelled rest := by
      rcases hrest with rfl | hcovers
      · exact hz.domain
      · obtain ⟨rev, rfl, hparse⟩ := Zone.covers_reverse_spec hcovers
        have hsplit' : rev ++ ".in-addr.arpa".toList = rev ++ '.' :: "in-addr.arpa".toList := by simp
        rw [hsplit']
        refine wellLabelled_append.mpr ⟨wellLabelled_reverse hparse ?_, by unfold WellLabelled; decide⟩
        intro part hpart
        apply hlength part
        rw [hsplit, List.splitOn_append_cons_self_of_not_mem hdot.1,
          List.splitOn_append_cons_self_of_not_mem (by decide),
          List.splitOn_append_cons_self_of_not_mem (by decide), hsplit', List.splitOn_append_cons_self]
        simp [hpart]
    have howner : WellLabelled name := by
      rw [hsplit, wellLabelled_cons hdot.1, wellLabelled_cons (by decide), wellLabelled_cons (by decide)]
      exact ⟨hdot.2, by decide, by decide, hlabels⟩
    intro r hr
    rw [hptr r hr]
    exact ⟨howner, hz.domain⟩
  · intro r hr
    rw [hptr r hr]
    exact ⟨hz.browse, hz.inst⟩
  · intro r hr
    rcases hrs r hr with rfl | rfl
    · exact ⟨hz.inst, hz.host⟩
    · exact ⟨hz.inst, hz.text⟩
  · intro r hr
    rw [ha r hr]
    exact ⟨hz.host, trivial⟩

end Records

section Replies

def rcode_of (answers : Option (List Record)) : UInt16 :=
  if answers.isNone then RCODE_NXDOMAIN else RCODE_OK

-- The reply before its length is looked at.
def full_reply (z : Zone) (q : Query) : Octets :=
  let answers := z.answer q.name q.qtype
  build_reply q (rcode_of answers) (answers.getD [])

-- What a decoder finds in the reply to `q`, asked by the datagram `query`.
structure Replies (z : Zone) (query : Octets) (q : Query) (reply : Octets) (m : Dns.Message) :
    Prop where
  asked : parse_query query = some q
  decoded : Dns.decode reply = some m
  id : m.id = u16_at query 0
  response : m.isResponse = true
  authoritative : m.isAuthoritative = true
  opcode : m.opcode = 0
  recursion : m.recursionDesired = (u16_at query 2 &&& 0x0100 != 0)
  questions : m.questions.length = 1
  ancount : (u16_at reply 6).toNat = m.answers.length
  authorities : m.authorities = []
  additionals : m.additionals = []
  answers :
    if (full_reply z q).length ≤ MAX_REPLY then
      m.isTruncated = false ∧ m.rcode = rcode_of (z.answer q.name q.qtype) ∧
        List.Forall₂ Carries m.answers ((z.answer q.name q.qtype).getD [])
    else m.isTruncated = true ∧ m.answers = []

private theorem u16_at_be16 (a b c d : UInt16) (rest : Octets) :
    u16_at (Bytes.be16 a ++ (Bytes.be16 b ++ (Bytes.be16 c ++ (Bytes.be16 d ++ rest)))) 2 = b ∧
      u16_at (Bytes.be16 a ++ (Bytes.be16 b ++ (Bytes.be16 c ++ (Bytes.be16 d ++ rest)))) 6 = d :=
  ⟨Bytes.ofBe16_be16 b, Bytes.ofBe16_be16 d⟩

theorem u16_at_flags (m : Dns.Message) : u16_at m.encode 2 = m.flags := (u16_at_be16 ..).1

theorem u16_at_ancount (m : Dns.Message) : u16_at m.encode 6 = UInt16.ofNat m.answers.length :=
  (u16_at_be16 ..).2

theorem rcode_of_cases (answers : Option (List Record)) :
    rcode_of answers = RCODE_OK ∨ rcode_of answers = RCODE_NXDOMAIN := by
  unfold rcode_of
  split_ifs
  · exact .inr rfl
  · exact .inl rfl

theorem replyFlags_spec (rd : Bool) {rcode flags : UInt16}
    (h : rcode = RCODE_OK ∨ rcode = RCODE_NXDOMAIN)
    (hflags : flags = replyFlags rd rcode ∨ flags = replyFlags rd rcode ||| FLAG_TRUNCATED) :
    (flags &&& 0x8000 != 0) = true ∧ (flags &&& 0x0400 != 0) = true ∧ (flags >>> 11) &&& 0xF = 0 ∧
      (flags &&& 0x0100 != 0) = rd ∧ flags &&& 0xF = rcode := by
  rcases h with rfl | rfl <;> rcases hflags with rfl | rfl <;> cases rd <;> decide

theorem replyFlags_truncated (rd : Bool) {rcode : UInt16}
    (h : rcode = RCODE_OK ∨ rcode = RCODE_NXDOMAIN) :
    (replyFlags rd rcode &&& 0x0200 != 0) = false ∧
      ((replyFlags rd rcode ||| FLAG_TRUNCATED) &&& 0x0200 != 0) = true := by
  rcases h with rfl | rfl <;> cases rd <;> decide

-- Setting the flag in the third byte sets it in the flags.
theorem modify_truncated (q : Query) :
    (build_reply q RCODE_OK []).modify 2 (· ||| (FLAG_TRUNCATED >>> 8).toUInt8) =
      (replyMessage q (replyFlags q.recursion_desired RCODE_OK ||| FLAG_TRUNCATED) []).encode := by
  have hbytes : ∀ rd, Bytes.be16 (replyFlags rd RCODE_OK ||| FLAG_TRUNCATED) =
      (Bytes.be16 (replyFlags rd RCODE_OK)).modify 0 (· ||| (FLAG_TRUNCATED >>> 8).toUInt8) := by
    decide
  rw [build_reply_eq]
  simp only [Dns.Message.encode, replyMessage, hbytes]
  rfl

theorem handle_of_query {z : Zone} {query : Octets} {q : Query} (hq : parse_query query = some q) :
    handle z query = some (if (full_reply z q).length ≤ MAX_REPLY then full_reply z q
      else (replyMessage q (replyFlags q.recursion_desired RCODE_OK ||| FLAG_TRUNCATED) []).encode) := by
  unfold handle
  simp only [hq, Option.bind_eq_bind, Option.bind_some, modify_truncated]
  by_cases hfull : (full_reply z q).length ≤ MAX_REPLY
  · rw [if_pos hfull]
    exact if_neg (Nat.not_lt.mpr hfull)
  · rw [if_neg hfull]
    exact if_pos (Nat.lt_of_not_le hfull)

-- Every reply is the encoding of a message that answers the query.
theorem handle_encode {z : Zone} {query reply : Octets} (h : handle z query = some reply) :
    ∃ q flags records, parse_query query = some q ∧ reply = (replyMessage q flags records).encode ∧
      (replyMessage q flags records).Fits ∧
      if (full_reply z q).length ≤ MAX_REPLY then
        flags = replyFlags q.recursion_desired (rcode_of (z.answer q.name q.qtype)) ∧
          records = (z.answer q.name q.qtype).getD []
      else flags = replyFlags q.recursion_desired RCODE_OK ||| FLAG_TRUNCATED ∧ records = [] := by
  cases hq : parse_query query with
  | none => simp [handle, hq] at h
  | some q =>
      rw [handle_of_query hq] at h
      have hreply := (Option.some.inj h).symm
      by_cases hfull : (full_reply z q).length ≤ MAX_REPLY
      · rw [if_pos hfull, full_reply, build_reply_eq] at hreply
        refine ⟨q, _, _, rfl, hreply, ?_, ?_⟩
        · apply Dns.Message.fits_of_length
          rw [full_reply, build_reply_eq, MAX_REPLY] at hfull
          omega
        · rw [if_pos hfull]
          exact ⟨rfl, rfl⟩
      · rw [if_neg hfull] at hreply
        refine ⟨q, _, _, rfl, hreply, ?_, ?_⟩
        · constructor <;> simp [replyMessage]
        · rw [if_neg hfull]
          exact ⟨rfl, rfl⟩

theorem handle_response {m : Dns.Message} (h : m.isResponse = true) (z : Zone) :
    handle z m.encode = none := by
  have hqr : m.flags &&& 0x8000 ≠ 0 := by simpa [Dns.Message.isResponse] using h
  have hnone : parse_query m.encode = none := by
    simp only [parse_query, u16_at_flags, if_pos hqr, ite_self]
  rw [handle, hnone]
  rfl

-- Every reply decodes to its last byte, as a message that carries exactly the zone's answer, and
-- no responder answers it.
theorem handle_replies (z : Zone) (hz : z.Publishable) (query reply : Octets)
    (h : handle z query = some reply) :
    (∃ q m, Replies z query q reply m) ∧ ∀ other : Zone, handle other reply = none := by
  obtain ⟨q, flags, records, hq, rfl, hfits, hsent⟩ := handle_encode h
  obtain ⟨-, hid, -, -, -, hrd, next, hname, -⟩ := parse_query_iff.mp hq
  have hancount : (u16_at (replyMessage q flags records).encode 6).toNat =
      (replyMessage q flags records).answers.length := by
    rw [u16_at_ancount, UInt16.toNat_ofNat']
    exact Nat.mod_eq_of_lt hfits.answers
  split_ifs at hsent with hfull
  · obtain ⟨rfl, rfl⟩ := hsent
    have hrcode := rcode_of_cases (z.answer q.name q.qtype)
    obtain ⟨hqr, haa, hop, hrec, hcode⟩ := replyFlags_spec q.recursion_desired hrcode (.inl rfl)
    constructor
    · refine ⟨q, _, hq, Dns.decode_encode _ hfits, hid, hqr, haa, hop, hrec.trans hrd, rfl,
        hancount, rfl, rfl, ?_⟩
      rw [if_pos hfull]
      refine ⟨(replyFlags_truncated _ hrcode).1, hcode, ?_⟩
      cases hanswer : z.answer q.name q.qtype with
      | none => exact List.Forall₂.nil
      | some records =>
          have hall := answer_publishable hz (read_name_length hname) hanswer
          exact List.forall₂_map_left_iff.mpr
            (List.forall₂_same.mpr fun r hr => carries_wire (hall r hr))
    · exact handle_response hqr
  · obtain ⟨rfl, rfl⟩ := hsent
    obtain ⟨hqr, haa, hop, hrec, -⟩ := replyFlags_spec q.recursion_desired (.inl rfl) (.inr rfl)
    constructor
    · refine ⟨q, _, hq, Dns.decode_encode _ hfits, hid, hqr, haa, hop, hrec.trans hrd, rfl,
        hancount, rfl, rfl, ?_⟩
      rw [if_neg hfull]
      exact ⟨(replyFlags_truncated _ (.inl rfl)).2, rfl⟩
    · exact handle_response hqr

-- The zone and a question of the source's own tests.
def zona : Zone :=
  let domain := "casa.internal".toList
  { domain
    browse := "_altserver._tcp.".toList ++ domain
    inst := "altkeeper-casa2._altserver._tcp.".toList ++ domain
    host := "altkeeper-8e68e3c9.".toList ++ domain
    server_id := "8e68e3c9e57288e9f7260efb6ea76c93".toList
    port := 49500
    address := ⟨[10, 0, 0, 5], rfl⟩
    clients := (⟨[10, 0, 0, 0], rfl⟩, 24) }

theorem zona_new : Zone.new "casa.internal".toList "altkeeper-casa2".toList
    "8e68e3c9e57288e9f7260efb6ea76c93".toList 49500 ⟨[10, 0, 0, 5], rfl⟩
    (⟨[10, 0, 0, 0], rfl⟩, 24) = some zona := by decide +kernel

def domanda (name : Str) (qtype : UInt16) : Octets :=
  write_name (Bytes.be16 0x1234 ++ Bytes.be16 0x0100 ++ Bytes.be16 1 ++ Bytes.be16 0 ++
    Bytes.be16 0 ++ Bytes.be16 0) name ++ Bytes.be16 qtype ++ Bytes.be16 CLASS_IN

theorem handle_replies_zona : ∃ reply, handle zona (domanda zona.inst TYPE_ANY) = some reply ∧
    ∃ q m, Replies zona (domanda zona.inst TYPE_ANY) q reply m := by
  have hsome : (handle zona (domanda zona.inst TYPE_ANY)).isSome = true := by decide +kernel
  have hzona : zona.Publishable := by
    constructor
    case text => decide
    all_goals unfold WellLabelled; decide
  obtain ⟨reply, h⟩ := Option.isSome_iff_exists.mp hsome
  exact ⟨reply, h, (handle_replies zona hzona _ reply h).1⟩

end Replies

end AltKeeper.Dnssd
