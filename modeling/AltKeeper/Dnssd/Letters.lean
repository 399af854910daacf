import AltKeeper.Dnssd.Question

-- The case of the letters of a question, and of what the zone is made of, changes nothing in a
-- reply but the case of the server id.
namespace AltKeeper.Dnssd

section Bytes

def lower_byte (b : UInt8) : UInt8 := if 65 ≤ b ∧ b ≤ 90 then b + 32 else b

def SameLetters (a b : Octets) : Prop := a.map lower_byte = b.map lower_byte

def SameCase (s t : Str) : Prop := s.to_ascii_lowercase = t.to_ascii_lowercase

theorem lower_byte_cases (b : UInt8) :
    lower_byte b = b ∨ (65 ≤ b.toNat ∧ b.toNat ≤ 90 ∧ (lower_byte b).toNat = b.toNat + 32) := by
  unfold lower_byte
  by_cases h : 65 ≤ b ∧ b ≤ 90
  · rw [if_pos h]
    rw [UInt8.le_iff_toNat_le, UInt8.le_iff_toNat_le] at h
    have h1 : (65 : UInt8).toNat = 65 := rfl
    have h2 : (90 : UInt8).toNat = 90 := rfl
    have h3 : (32 : UInt8).toNat = 32 := rfl
    refine .inr ⟨by omega, by omega, ?_⟩
    rw [UInt8.toNat_add, h3]
    omega
  · rw [if_neg h]
    exact .inl rfl

theorem mapsAscii_lower : Utf8.MapsAscii lower_byte Char.toLower := by
  constructor
  · intro b hb
    exact (lower_byte_cases b).resolve_right fun h => by omega
  · intro c hc
    exact (Str.toLower_cases c).resolve_right fun h => by omega
  · have hall : ∀ n < 0x80, (lower_byte (UInt8.ofNat n)).toNat < 0x80 ∧
        Char.toLower (Char.ofNat n) = Char.ofNat (lower_byte (UInt8.ofNat n)).toNat := by
      decide +kernel
    intro b hb
    have := hall b.toNat hb
    rwa [UInt8.ofNat_toNat] at this

theorem lossy_lower (label : Octets) :
    Str.to_ascii_lowercase (Utf8.lossy label) = Utf8.lossy (label.map lower_byte) :=
  (Utf8.lossy_map mapsAscii_lower label).symm

-- A byte that can be a length is no letter.
theorem length_or_letter {a b : UInt8} (h : lower_byte a = lower_byte b) :
    a = b ∨ (63 < a ∧ 63 < b) := by
  have h63 : (63 : UInt8).toNat = 63 := rfl
  rw [UInt8.lt_iff_toNat_lt, UInt8.lt_iff_toNat_lt, h63]
  rcases lower_byte_cases a with ha | ha <;> rcases lower_byte_cases b with hb | hb
  · exact .inl (by rw [← ha, h, hb])
  · rw [← h, ha] at hb
    exact .inr (by omega)
  · rw [h, hb] at ha
    exact .inr (by omega)
  · exact .inr (by omega)

end Bytes

section Questions

-- Two datagrams that may differ in the case of the letters of the name that is asked, where it is
-- read.
structure SameQuestion (query query' : Octets) : Prop where
  header : query.take 12 = query'.take 12
  letters : SameLetters query query'
  rest : ∀ name next, read_name query 12 = some (name, next) → query.drop next = query'.drop next

theorem read_labels_letters {buf buf' : Octets} (h : SameLetters buf buf') (room at_ : Nat) :
    read_labels buf room at_ = read_labels buf' room at_ := by
  have hlen : buf.length = buf'.length := by simpa using congrArg List.length h
  induction room generalizing at_ with
  | zero => rfl
  | succ room ih =>
      by_cases hat : at_ < buf.length
      · have hbyte := congrArg (fun bytes => bytes[at_]?) h
        simp only [List.getElem?_map, List.getElem?_eq_getElem hat,
          List.getElem?_eq_getElem (hlen ▸ hat), Option.map_some, Option.some.injEq] at hbyte
        rw [read_labels, read_labels, List.getElem?_eq_getElem hat,
          List.getElem?_eq_getElem (hlen ▸ hat)]
        rcases length_or_letter hbyte with hsame | ⟨hlarge, hlarge'⟩
        · have hlabel : ∀ start count,
              Str.to_ascii_lowercase (Utf8.lossy ((buf.drop start).take count)) =
                Str.to_ascii_lowercase (Utf8.lossy ((buf'.drop start).take count)) := by
            intro start count
            rw [lossy_lower, lossy_lower, List.map_take, List.map_drop, h, ← List.map_drop,
              ← List.map_take]
          simp only [hsame, hlen, ih, hlabel]
        · have hzero : ∀ b : UInt8, 63 < b → b ≠ 0 := by
            rintro b hb rfl
            exact absurd hb (by decide)
          simp only [if_neg (hzero _ hlarge), if_neg (hzero _ hlarge'),
            if_pos (Or.inr hlarge : 0xC0 ≤ buf[at_] ∨ _), if_pos (Or.inr hlarge' : 0xC0 ≤ buf'[at_] ∨ _)]
      · rw [read_labels, read_labels, List.getElem?_eq_none (by omega),
          List.getElem?_eq_none (by omega)]

theorem u16_at_drop (buf : Octets) (start i : Nat) : u16_at (buf.drop start) i = u16_at buf (start + i) := by
  simp only [u16_at, List.getD_eq_getElem?_getD, List.getElem?_drop, Nat.add_assoc]

theorem u16_at_take {buf : Octets} {count i : Nat} (h : i + 1 < count) :
    u16_at (buf.take count) i = u16_at buf i := by
  simp only [u16_at, List.getD_eq_getElem?_getD, List.getElem?_take_of_lt h,
    List.getElem?_take_of_lt (Nat.lt_of_succ_lt h)]

theorem parse_query_letters {query query' : Octets} (h : SameQuestion query query') :
    parse_query query = parse_query query' := by
  have hlen : query.length = query'.length := by simpa using congrArg List.length h.letters
  have hhead : ∀ i, i + 1 < 12 → u16_at query i = u16_at query' i := by
    intro i hi
    rw [← u16_at_take hi, h.header, u16_at_take hi]
  have hname : read_name query 12 = read_name query' 12 := by
    rw [read_name, read_name, read_labels_letters h.letters]
  unfold parse_query
  rw [← hname, ← hlen, hhead 0 (by decide), hhead 2 (by decide), hhead 4 (by decide)]
  cases hread : read_name query 12 with
  | none => rfl
  | some found =>
      obtain ⟨name, next⟩ := found
      have hrest : ∀ i, u16_at query (next + i) = u16_at query' (next + i) := by
        intro i
        rw [← u16_at_drop, h.rest name next hread, u16_at_drop]
      have htype := hrest 0
      have hclass := hrest 2
      rw [Nat.add_zero] at htype
      simp only [htype, hclass]

end Questions

section Zones

theorem dropWhile_map_lower (s : Str) :
    (s.to_ascii_lowercase).dropWhile (· == '.') = Str.to_ascii_lowercase (s.dropWhile (· == '.')) := by
  unfold Str.to_ascii_lowercase
  rw [List.dropWhile_map]
  congr 2
  funext c
  have hdot := Str.toLower_eq_iff (x := '.') (by decide) (by decide) c
  rw [Function.comp_apply, Bool.eq_iff_iff, beq_iff_eq, beq_iff_eq, hdot]

theorem trim_matches_lower (s : Str) :
    (s.trim_matches '.').to_ascii_lowercase = s.to_ascii_lowercase.trim_matches '.' := by
  have hreverse : ∀ t : Str, Str.to_ascii_lowercase t.reverse = (Str.to_ascii_lowercase t).reverse :=
    fun t => List.map_reverse
  unfold Str.trim_matches
  rw [hreverse, ← dropWhile_map_lower, hreverse, ← dropWhile_map_lower]

theorem slice_to_lower (s : Str) (n : Nat) :
    s.to_ascii_lowercase.slice_to n = (s.slice_to n).map Str.to_ascii_lowercase := by
  induction s, n using Str.slice_to.induct with
  | case1 s =>
      rw [Str.slice_to, Str.slice_to]
      rfl
  | case2 n => rfl
  | case3 c s n hfit ih =>
      have hsize := Str.utf8Size_toLower c
      rw [Str.to_ascii_lowercase, List.map_cons, Str.slice_to, hsize, if_pos hfit, Str.slice_to,
        if_pos hfit, Option.map_map, ← Str.to_ascii_lowercase, ih, Option.map_map]
      rfl
  | case4 c s n hfit =>
      have hsize := Str.utf8Size_toLower c
      rw [Str.to_ascii_lowercase, List.map_cons, Str.slice_to, hsize, if_neg hfit, Str.slice_to,
        if_neg hfit]
      rfl

-- Zones made of the same names are the same, but for the id they keep as it was given.
theorem zone_letters {domain inst id domain' inst' id' : Str} {port : UInt16} {address : Ipv4Addr}
    {clients : Ipv4Addr × UInt8} {z z' : Zone} (hdomain : SameCase domain domain')
    (hinst : SameCase inst inst') (hid : SameCase id id')
    (h : Zone.new domain inst id port address clients = some z)
    (h' : Zone.new domain' inst' id' port address clients = some z') :
    z.server_id = id ∧ z' = { z with server_id := id' } := by
  obtain ⟨short, hshort, rfl⟩ := Zone.new_some h
  obtain ⟨short', hshort', rfl⟩ := Zone.new_some h'
  have hlen : id.len = id'.len := by
    rw [← Str.len_to_ascii_lowercase, hid, Str.len_to_ascii_lowercase]
  have hcut : short.to_ascii_lowercase = short'.to_ascii_lowercase := by
    have hsame := slice_to_lower id (min id.len 8)
    rw [hid, slice_to_lower, hlen, hshort', ← hlen, hshort] at hsame
    exact (Option.some.inj hsame).symm
  have hbase : (domain.trim_matches '.').to_ascii_lowercase =
      (domain'.trim_matches '.').to_ascii_lowercase := by
    rw [trim_matches_lower, trim_matches_lower, hdomain]
  refine ⟨rfl, ?_⟩
  rw [hcut, hbase, hinst]

end Zones

section Replies

-- The same record, but for the case of the letters of the id.
def SameText (r r' : Record) : Prop :=
  r = r' ∨ ∃ name id id', SameCase id id' ∧ r = .Txt name ("serverID=".toList ++ id) ∧
    r' = .Txt name ("serverID=".toList ++ id')

theorem answer_letters (z : Zone) {id' : Str} (hid : SameCase z.server_id id') (name : Str)
    (qtype : UInt16) :
    Option.Rel (List.Forall₂ SameText) (z.answer name qtype)
      ({ z with server_id := id' }.answer name qtype) := by
  have hrefl : ∀ records, List.Forall₂ SameText records records := fun records =>
    List.forall₂_same.mpr fun r _ => .inl rfl
  have htext : ∀ c : Bool, List.Forall₂ SameText
      (if c then [.Txt name ("serverID=".toList ++ z.server_id)] else [])
      (if c then [.Txt name ("serverID=".toList ++ id')] else []) := by
    intro c
    cases c with
    | false => exact .nil
    | true => exact .cons (.inr ⟨name, _, _, hid, rfl, rfl⟩) .nil
  have hcovers : ∀ rest, Zone.covers_reverse { z with server_id := id' } rest = z.covers_reverse rest :=
    fun rest => rfl
  simp only [Zone.answer, hcovers]
  by_cases hbrowsing : (["b", "db", "lb"].findSome? fun p =>
      name.dropPrefix? (p.toList ++ "._dns-sd._udp.".toList)).any
        fun rest => rest == z.domain || z.covers_reverse rest
  · rw [if_pos hbrowsing, if_pos hbrowsing]
    exact .some (hrefl _)
  rw [if_neg hbrowsing, if_neg hbrowsing]
  by_cases hbrowse : name = z.browse
  · rw [if_pos hbrowse, if_pos hbrowse]
    exact .some (hrefl _)
  rw [if_neg hbrowse, if_neg hbrowse]
  by_cases hinst : name = z.inst
  · rw [if_pos hinst, if_pos hinst]
    exact .some (List.rel_append (hrefl _) (htext _))
  rw [if_neg hinst, if_neg hinst]
  by_cases hhost : name = z.host
  · rw [if_pos hhost]
    exact .some (hrefl _)
  · rw [if_neg hhost]
    exact .none

theorem length_wire {r r' : Record} (h : SameText r r') :
    r.wire.encode.length = r'.wire.encode.length := by
  obtain rfl | ⟨name, id, id', hid, rfl, rfl⟩ := h
  · rfl
  · have hlen : (Utf8.encode id).length = (Utf8.encode id').length := by
      have := congrArg Str.len hid
      rwa [Str.len_to_ascii_lowercase, Str.len_to_ascii_lowercase] at this
    have htext : (wireText ("serverID=".toList ++ id)).1.length =
        (wireText ("serverID=".toList ++ id')).1.length := by
      simp only [wireText, List.length_take, Utf8.encode_append, List.length_append, hlen]
    simp only [Record.wire, Record.wireData, Record.owner, Dns.Record.encode, Dns.RData.encode,
      List.flatMap_cons, List.flatMap_nil, Dns.encodeString, List.length_append, List.length_cons,
      htext, Bytes.length_be16, Bytes.length_be32]

theorem length_wires {rs rs' : List Record} (h : List.Forall₂ SameText rs rs') :
    ((rs.map Record.wire).flatMap Dns.Record.encode).length =
      ((rs'.map Record.wire).flatMap Dns.Record.encode).length := by
  induction h with
  | nil => rfl
  | cons hr hrs ih =>
      rw [List.map_cons, List.map_cons, List.flatMap_cons, List.flatMap_cons, List.length_append,
        List.length_append, length_wire hr, ih]

theorem answers_rel {answers answers' : Option (List Record)}
    (h : Option.Rel (List.Forall₂ SameText) answers answers') :
    rcode_of answers = rcode_of answers' ∧
      List.Forall₂ SameText (answers.getD []) (answers'.getD []) := by
  cases h with
  | some hrecords => exact ⟨rfl, hrecords⟩
  | none => exact ⟨rfl, .nil⟩

-- What a client decodes: the same records, but for the case of the letters of the id.
def SameRecord (r r' : Dns.Record) : Prop :=
  r.name = r'.name ∧ r.rclass = r'.rclass ∧ r.ttl = r'.ttl ∧
    (r.data = r'.data ∨ ∃ id id', SameCase id id' ∧
      r.data = .txt (wireText ("serverID=".toList ++ id)) [] ∧
      r'.data = .txt (wireText ("serverID=".toList ++ id')) [])

def SameReply (reply reply' : Octets) : Prop :=
  ∃ m m', Dns.decode reply = some m ∧ Dns.decode reply' = some m' ∧ m.id = m'.id ∧
    m.flags = m'.flags ∧ m.questions = m'.questions ∧
    List.Forall₂ SameRecord m.answers m'.answers ∧
    m.authorities = m'.authorities ∧ m.additionals = m'.additionals

theorem sameRecord_wire {r r' : Record} (h : SameText r r') : SameRecord r.wire r'.wire := by
  obtain rfl | ⟨name, id, id', hid, rfl, rfl⟩ := h
  · exact ⟨rfl, rfl, rfl, .inl rfl⟩
  · exact ⟨rfl, rfl, rfl, .inr ⟨id, id', hid, rfl, rfl⟩⟩

theorem sameReply_encode (q : Query) {flags : UInt16} {records records' : List Record}
    (hfits : (replyMessage q flags records).Fits) (hfits' : (replyMessage q flags records').Fits)
    (h : List.Forall₂ SameText records records') :
    SameReply (replyMessage q flags records).encode (replyMessage q flags records').encode := by
  refine ⟨_, _, Dns.decode_encode _ hfits, Dns.decode_encode _ hfits', rfl, rfl, rfl, ?_, rfl, rfl⟩
  exact List.forall₂_map_left_iff.mpr (List.forall₂_map_right_iff.mpr (h.imp fun _ _ => sameRecord_wire))

-- Neither the letters of the question nor those of the names decide what is answered.
theorem letter_case {domain inst id domain' inst' id' : Str} {port : UInt16} {address : Ipv4Addr}
    {clients : Ipv4Addr × UInt8} {z z' : Zone} (hdomain : SameCase domain domain')
    (hinst : SameCase inst inst') (hid : SameCase id id')
    (h : Zone.new domain inst id port address clients = some z)
    (h' : Zone.new domain' inst' id' port address clients = some z') {query query' : Octets}
    (hquery : SameQuestion query query') :
    Option.Rel SameReply (handle z query) (handle z' query') := by
  obtain ⟨hserver, rfl⟩ := zone_letters hdomain hinst hid h h'
  have hparse := parse_query_letters hquery
  cases hq : parse_query query with
  | none =>
      have hq' := hparse.symm.trans hq
      rw [handle, handle, hq, hq']
      exact .none
  | some q =>
      have hq' := hparse.symm.trans hq
      have hreply := handle_of_query (z := z) hq
      have hreply' := handle_of_query (z := { z with server_id := id' }) hq'
      obtain ⟨q₁, flags, records, hq₁, hencode, hfits, hsent⟩ := handle_encode hreply
      obtain ⟨q₂, flags', records', hq₂, hencode', hfits', hsent'⟩ := handle_encode hreply'
      obtain rfl : q = q₁ := Option.some.inj (hq.symm.trans hq₁)
      obtain rfl : q = q₂ := Option.some.inj (hq'.symm.trans hq₂)
      have hanswers := answer_letters z (hserver ▸ hid) q.name q.qtype
      obtain ⟨hrcode, hrecords⟩ := answers_rel hanswers
      have hlength : (full_reply z q).length = (full_reply { z with server_id := id' } q).length := by
        rw [full_reply, full_reply, build_reply_eq, build_reply_eq, length_replyMessage,
          length_replyMessage, length_wires hrecords]
      rw [hreply, hreply', hencode, hencode']
      rw [← hlength] at hsent'
      by_cases hfull : (full_reply z q).length ≤ MAX_REPLY
      · rw [if_pos hfull] at hsent hsent'
        obtain ⟨rfl, rfl⟩ := hsent
        obtain ⟨rfl, rfl⟩ := hsent'
        rw [hrcode] at hfits ⊢
        exact .some (sameReply_encode q hfits hfits' hrecords)
      · rw [if_neg hfull] at hsent hsent'
        obtain ⟨rfl, rfl⟩ := hsent
        obtain ⟨rfl, rfl⟩ := hsent'
        exact .some (sameReply_encode q hfits hfits' .nil)

-- A shouted domain and id, and a shouted question.
theorem letter_case_zona : ∃ z',
    Zone.new "CASA.internal".toList "AltKeeper-casa2".toList
      "8E68E3C9E57288e9f7260efb6ea76c93".toList 49500 ⟨[10, 0, 0, 5], rfl⟩
      (⟨[10, 0, 0, 0], rfl⟩, 24) = some z' ∧
    Option.Rel SameReply (handle zona (domanda zona.inst TYPE_ANY))
      (handle z' (domanda "ALTKEEPER-CASA2._altserver._TCP.casa.INTERNAL".toList TYPE_ANY)) := by
  have hnew : Zone.new "CASA.internal".toList "AltKeeper-casa2".toList
      "8E68E3C9E57288e9f7260efb6ea76c93".toList 49500 ⟨[10, 0, 0, 5], rfl⟩
      (⟨[10, 0, 0, 0], rfl⟩, 24) =
      some { zona with server_id := "8E68E3C9E57288e9f7260efb6ea76c93".toList } := by decide +kernel
  have hdomain : SameCase "casa.internal".toList "CASA.internal".toList := by unfold SameCase; decide
  have hinst : SameCase "altkeeper-casa2".toList "AltKeeper-casa2".toList := by
    unfold SameCase
    decide
  have hid : SameCase "8e68e3c9e57288e9f7260efb6ea76c93".toList
      "8E68E3C9E57288e9f7260efb6ea76c93".toList := by
    unfold SameCase
    decide
  refine ⟨_, hnew, letter_case hdomain hinst hid zona_new hnew ?_⟩
  constructor
  · decide +kernel
  · unfold SameLetters
    decide +kernel
  · intro name next hread
    have hnext : (read_name (domanda zona.inst TYPE_ANY) 12).map (·.2) = some 59 := by decide +kernel
    rw [hread] at hnext
    obtain rfl : next = 59 := Option.some.inj hnext
    decide +kernel

end Replies

end AltKeeper.Dnssd
