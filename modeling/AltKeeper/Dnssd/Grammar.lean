import AltKeeper.Dnssd.Echo
import Mathlib.Data.Nat.Bitwise

-- Which datagrams are questions the server reads, and what it reads in them.
namespace AltKeeper.Dnssd

section Indexing

-- `u16::from_be_bytes([buf[i], buf[i + 1]])`, which panics (`none`) past the end.
def index_u16 (buf : Octets) (i : Nat) : Option UInt16 := do
  some (Bytes.ofBe16 (← buf[i]?) (← buf[i + 1]?))

-- `parse_query` with the panics of its indexing: the outer `none`.
def parse_query_indexed (buf : Octets) : Option (Option Query) :=
  if buf.length < 12 then some none
  else do
    let id ← index_u16 buf 0
    let flags ← index_u16 buf 2
    if flags &&& 0x8000 ≠ 0 then some none
    else if (flags >>> 11) &&& 0xF ≠ 0 then some none
    else if (← index_u16 buf 4) ≠ 1 then some none
    else
      match read_name buf 12 with
      | none => some none
      | some (name, next) =>
          if buf.length < next + 4 then some none
          else do
            let qtype ← index_u16 buf next
            let qclass ← index_u16 buf (next + 2)
            if qclass ≠ CLASS_IN ∧ qclass ≠ TYPE_ANY then some none
            else some (some { id, recursion_desired := flags &&& 0x0100 != 0, name, qtype, qclass })

theorem index_u16_eq {buf : Octets} {i : Nat} (h : i + 2 ≤ buf.length) :
    index_u16 buf i = some (u16_at buf i) := by
  have h0 : i < buf.length := by omega
  have h1 : i + 1 < buf.length := by omega
  simp [index_u16, u16_at, h0, h1]

theorem parse_query_indexed_eq (buf : Octets) :
    parse_query_indexed buf = some (parse_query buf) := by
  unfold parse_query_indexed parse_query
  by_cases hlen : buf.length < 12
  · rw [if_pos hlen, if_pos hlen]
  · rw [if_neg hlen, if_neg hlen, index_u16_eq (by omega), index_u16_eq (by omega),
      index_u16_eq (by omega)]
    simp only [Option.bind_eq_bind, Option.bind_some]
    cases hname : read_name buf 12 with
    | none => split_ifs <;> rfl
    | some found =>
        obtain ⟨name, next⟩ := found
        by_cases hend : buf.length < next + 4
        · simp only [if_pos hend]
          split_ifs <;> rfl
        · simp only [if_neg hend, index_u16_eq (show next + 2 ≤ buf.length by omega),
            index_u16_eq (show next + 2 + 2 ≤ buf.length by omega), Option.bind_some]
          split_ifs <;> rfl

end Indexing

section Grammar

-- A header with QR (bit 15) clear, opcode (bits 11 to 14) 0 and one question, then that
-- question. The counts of the other sections, and all that follows, may be anything.
structure Asks (buf : Octets) (id flags : UInt16) (question : Dns.Question) : Prop where
  bytes : ∃ counts rest, counts.length = 6 ∧
    buf = Bytes.be16 id ++ (Bytes.be16 flags ++ (Bytes.be16 1 ++ (counts ++ (question.encode ++ rest))))
  query : flags.toNat.testBit 15 = false
  standard : flags.toNat / 2 ^ 11 % 2 ^ 4 = 0
  short : question.name.length ≤ 32
  internet : question.qclass = CLASS_IN ∨ question.qclass = TYPE_ANY

-- RD is bit 8.
def asked (id flags : UInt16) (question : Dns.Question) : Query :=
  { id
    recursion_desired := flags.toNat.testBit 8
    name := heard question.name
    qtype := question.qtype
    qclass := question.qclass }

theorem flag_eq_zero_iff {flags mask : UInt16} {i : Nat} (hmask : mask.toNat = 2 ^ i) :
    flags &&& mask = 0 ↔ flags.toNat.testBit i = false := by
  have hzero : (0 : UInt16).toNat = 0 := rfl
  rw [← UInt16.toNat_inj, UInt16.toNat_and, hmask, Nat.and_two_pow, hzero]
  cases flags.toNat.testBit i with
  | false => simp
  | true => simp

theorem flag_ne_zero {flags mask : UInt16} {i : Nat} (hmask : mask.toNat = 2 ^ i) :
    (flags &&& mask != 0) = flags.toNat.testBit i := by
  cases hbit : flags.toNat.testBit i with
  | false => simpa using (flag_eq_zero_iff hmask).mpr hbit
  | true =>
      have hne : flags &&& mask ≠ 0 := fun h => by simp [(flag_eq_zero_iff hmask).mp h] at hbit
      simpa using hne

theorem opcode_eq_zero_iff (flags : UInt16) :
    (flags >>> 11) &&& 0xF = 0 ↔ flags.toNat / 2 ^ 11 % 2 ^ 4 = 0 := by
  have hzero : (0 : UInt16).toNat = 0 := rfl
  have hmask : (0xF : UInt16).toNat = 2 ^ 4 - 1 := rfl
  have hshift : (11 : UInt16).toNat % 16 = 11 := rfl
  rw [← UInt16.toNat_inj, UInt16.toNat_and, hmask, Nat.and_two_pow_sub_one_eq_mod,
    UInt16.toNat_shiftRight, hshift, hzero, Nat.shiftRight_eq_div_pow]

theorem drop_u16_at (buf : Octets) (i : Nat) (h : i + 2 ≤ buf.length) :
    buf.drop i = Bytes.be16 (u16_at buf i) ++ buf.drop (i + 2) := by
  have h0 : i < buf.length := by omega
  have h1 : i + 1 < buf.length := by omega
  rw [List.drop_eq_getElem_cons h0, List.drop_eq_getElem_cons h1, u16_at, Bytes.be16_ofBe16]
  simp [h0, h1]

-- The labels that were read are on the wire where they were read, up to the byte that ends them.
theorem read_labels_some {buf : Octets} {room at_ next : Nat} {parts : List Str}
    (h : read_labels buf room at_ = some (parts, next)) :
    ∃ name : Dns.Name, name.length < room ∧ parts = name.map heardLabel ∧
      buf.drop at_ = Dns.encodeName name ++ buf.drop next := by
  induction room generalizing at_ parts next with
  | zero => simp [read_labels] at h
  | succ room ih =>
      unfold read_labels at h
      split at h
      · cases h
      · rename_i len hlen
        obtain ⟨hat, hget⟩ := List.getElem?_eq_some_iff.mp hlen
        have hdrop : buf.drop at_ = len :: buf.drop (at_ + 1) := by
          rw [List.drop_eq_getElem_cons hat, hget]
        split_ifs at h with hzero hlarge
        · obtain ⟨rfl, rfl⟩ := Prod.mk.inj (Option.some.inj h)
          refine ⟨[], Nat.succ_pos room, rfl, ?_⟩
          rw [hdrop, hzero]
          rfl
        · cases hrest : read_labels buf room (at_ + 1 + len.toNat) with
          | none => simp [hrest] at h
          | some result =>
              obtain ⟨parts', next'⟩ := result
              simp only [hrest] at h
              split_ifs at h with hshort
              obtain ⟨rfl, rfl⟩ := Prod.mk.inj (Option.some.inj h)
              obtain ⟨name, hcount, rfl, hname⟩ := ih hrest
              -- the bytes of the label, between its length and the next one
              have hbound : len.toNat ≤ 63 := by
                have hnot : ¬ 63 < len := fun h' => hlarge (Or.inr h')
                exact UInt8.le_iff_toNat_le.mp (UInt8.not_lt.mp hnot)
              have hpos : len.toNat ≠ 0 := fun h' => hzero (UInt8.toNat_inj.mp h')
              have hlabel : ((buf.drop (at_ + 1)).take len.toNat).length = len.toNat := by
                rw [List.length_take, List.length_drop]
                omega
              refine ⟨⟨(buf.drop (at_ + 1)).take len.toNat, by omega⟩ :: name, by
                simpa using hcount, rfl, ?_⟩
              have hencode : Dns.encodeString ((buf.drop (at_ + 1)).take len.toNat) =
                  len :: (buf.drop (at_ + 1)).take len.toNat := by
                rw [Dns.encodeString, hlabel, UInt8.ofNat_toNat]
              have hsplit : buf.drop (at_ + 1) =
                  (buf.drop (at_ + 1)).take len.toNat ++ buf.drop (at_ + 1 + len.toNat) := by
                rw [← List.drop_drop (i := len.toNat), List.take_append_drop]
              have hcons : Dns.encodeName (⟨(buf.drop (at_ + 1)).take len.toNat, by omega⟩ :: name) =
                  Dns.encodeString ((buf.drop (at_ + 1)).take len.toNat) ++ Dns.encodeName name := by
                simp [Dns.encodeName]
              rw [hdrop, hcons, hencode, List.append_assoc, ← hname, List.cons_append, ← hsplit]

theorem read_name_some {buf : Octets} {at_ next : Nat} {name : Str}
    (h : read_name buf at_ = some (name, next)) :
    ∃ labels : Dns.Name, labels.length ≤ 32 ∧ name = heard labels ∧
      buf.drop at_ = Dns.encodeName labels ++ buf.drop next := by
  rw [read_name, Option.map_eq_some_iff] at h
  obtain ⟨⟨parts, next'⟩, hparts, heq⟩ := h
  obtain ⟨rfl, rfl⟩ := Prod.mk.inj heq
  obtain ⟨labels, hcount, rfl, hdrop⟩ := read_labels_some hparts
  exact ⟨labels, Nat.le_of_lt_succ hcount, rfl, hdrop⟩

theorem parse_query_asks {buf : Octets} {q : Query} (h : parse_query buf = some q) :
    ∃ id flags question, Asks buf id flags question ∧ q = asked id flags question := by
  obtain ⟨hlen, hid, hqr, hop, hqd, hrd, next, hname, hend, hqtype, hqclass, hclass⟩ :=
    parse_query_iff.mp h
  obtain ⟨labels, hcount, hheard, hdrop⟩ := read_name_some hname
  have hone : (0x8000 : UInt16).toNat = 2 ^ 15 := rfl
  have hrdbit : (0x0100 : UInt16).toNat = 2 ^ 8 := rfl
  refine ⟨u16_at buf 0, u16_at buf 2, ⟨labels, q.qtype, q.qclass⟩, ?_, ?_⟩
  · constructor
    case query => exact (flag_eq_zero_iff hone).mp hqr
    case standard => exact (opcode_eq_zero_iff _).mp hop
    case short => exact hcount
    case internet => exact hclass
    case bytes =>
      refine ⟨(buf.drop 6).take 6, buf.drop (next + 4), by
        rw [List.length_take, List.length_drop]; omega, ?_⟩
      have h0 := drop_u16_at buf 0 (by omega)
      have h2 := drop_u16_at buf 2 (by omega)
      have h4 := drop_u16_at buf 4 (by omega)
      have h6 : buf.drop 6 = (buf.drop 6).take 6 ++ buf.drop 12 := by
        rw [show 12 = 6 + 6 from rfl, ← List.drop_drop, List.take_append_drop]
      have htype := drop_u16_at buf next (by omega)
      have htail := drop_u16_at buf (next + 2) (by omega)
      rw [List.drop_zero] at h0
      rw [hqd] at h4
      rw [hqtype, hqclass, Dns.Question.encode, List.append_assoc, List.append_assoc,
        ← htail, ← htype, ← hdrop, ← h6, ← h4, ← h2]
      exact h0
  · obtain ⟨id, rd, name, qtype, qclass⟩ := q
    simp only [asked, Query.mk.injEq, and_true]
    exact ⟨hid, hrd.trans (flag_ne_zero hrdbit), hheard⟩

theorem Asks.parse_query {buf : Octets} {id flags : UInt16} {question : Dns.Question}
    (h : Asks buf id flags question) : parse_query buf = some (asked id flags question) := by
  obtain ⟨counts, rest, hsix, hbuf⟩ := h.bytes
  have hone : (0x8000 : UInt16).toNat = 2 ^ 15 := rfl
  have hrdbit : (0x0100 : UInt16).toNat = 2 ^ 8 := rfl
  let header := Bytes.be16 id ++ (Bytes.be16 flags ++ (Bytes.be16 1 ++ counts))
  have hheader : header.length = 12 := by
    simp only [header, List.length_append, Bytes.length_be16, hsix]
  have hsplit : buf = header ++ (question.encode ++ rest) := by
    simp only [hbuf, header, List.append_assoc]
  have hid := u16_at_append [] (Bytes.be16 flags ++ (Bytes.be16 1 ++
    (counts ++ (question.encode ++ rest)))) id
  have hflags := u16_at_append (Bytes.be16 id) (Bytes.be16 1 ++
    (counts ++ (question.encode ++ rest))) flags
  have hqd := u16_at_append (Bytes.be16 id ++ Bytes.be16 flags)
    (counts ++ (question.encode ++ rest)) 1
  have hname := read_labels_encodeName header
    (Bytes.be16 question.qtype ++ (Bytes.be16 question.qclass ++ rest)) question.name 33
  have hqtype := u16_at_append (header ++ Dns.encodeName question.name)
    (Bytes.be16 question.qclass ++ rest) question.qtype
  have hqclass := u16_at_append (header ++ (Dns.encodeName question.name ++ Bytes.be16 question.qtype))
    rest question.qclass
  have hwhole : header ++ (Dns.encodeName question.name ++ (Bytes.be16 question.qtype ++
      (Bytes.be16 question.qclass ++ rest))) = buf := by
    simp only [hsplit, Dns.Question.encode, List.append_assoc]
  have hlen : buf.length = 12 + (Dns.encodeName question.name).length + 4 + rest.length := by
    simp only [hsplit, Dns.Question.encode, List.length_append, hheader, Bytes.length_be16]
    omega
  simp only [List.append_assoc, List.nil_append, List.length_nil, Bytes.length_be16,
    List.length_append, ← hbuf] at hid hflags hqd
  simp only [List.append_assoc, List.length_append, hheader, Bytes.length_be16, hwhole,
    if_pos (Nat.lt_succ_of_le h.short)] at hname hqtype hqclass
  apply parse_query_iff.mpr
  refine ⟨by omega, hid.symm, ?_, ?_, hqd, ?_, 12 + (Dns.encodeName question.name).length, ?_,
    by omega, hqtype.symm, ?_, h.internet⟩
  · rw [hflags]
    exact (flag_eq_zero_iff hone).mpr h.query
  · rw [hflags]
    exact (opcode_eq_zero_iff _).mpr h.standard
  · rw [hflags]
    exact (flag_ne_zero hrdbit).symm
  · rw [read_name, hname]
    rfl
  · rw [← Nat.add_assoc] at hqclass
    exact hqclass.symm

-- The parser never reads past the end, and accepts exactly the datagrams that ask.
theorem parse_query_grammar (buf : Octets) :
    ∃ result, parse_query_indexed buf = some result ∧
      ∀ q, result = some q ↔
        ∃ id flags question, Asks buf id flags question ∧ q = asked id flags question := by
  refine ⟨parse_query buf, parse_query_indexed_eq buf, fun q => ⟨parse_query_asks, ?_⟩⟩
  rintro ⟨id, flags, question, hasks, rfl⟩
  exact hasks.parse_query

end Grammar

end AltKeeper.Dnssd
