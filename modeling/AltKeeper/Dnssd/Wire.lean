import AltKeeper.Dnssd
import AltKeeper.Lib.Dns

-- What the writers of the source put on the wire, as parts of a DNS message.
namespace AltKeeper.Dnssd

section Parts

def wireLabel? (label : Str) : Option Dns.Label :=
  let bytes := (Utf8.encode label).take 63
  if h : 1 ≤ bytes.length ∧ bytes.length ≤ 63 then some ⟨bytes, h⟩ else none

def wireName (name : Str) : Dns.Name := (name.splitOn '.').filterMap wireLabel?

def wireText (text : Str) : Dns.Text := 
  ⟨(Utf8.encode text).take 255, by rw [List.length_take]; omega⟩

def Record.owner : Record → Str
  | .A name _ | .Ptr name _ | .Txt name _ | .Srv name _ _ => name

def Record.wireData : Record → Dns.RData
  | .A _ address =>
      .a (address.octets.getD 0 0) (address.octets.getD 1 0) (address.octets.getD 2 0)
        (address.octets.getD 3 0)
  | .Ptr _ target => .ptr (wireName target)
  | .Txt _ text => .txt (wireText text) []
  | .Srv _ port target => .srv 0 0 port (wireName target)

def Record.wire (r : Record) : Dns.Record :=
  { name := wireName r.owner, rclass := CLASS_IN, ttl := TTL, data := r.wireData }

def replyFlags (recursion_desired : Bool) (rcode : UInt16) : UInt16 :=
  0x8400 ||| (if recursion_desired then 0x0100 else 0) ||| rcode

def replyMessage (q : Query) (flags : UInt16) (records : List Record) : Dns.Message :=
  { id := q.id
    flags
    questions := [{ name := wireName q.name, qtype := q.qtype, qclass := q.qclass }]
    answers := records.map Record.wire
    authorities := []
    additionals := [] }

end Parts

theorem Ipv4Addr.exists_octets (address : Ipv4Addr) :
    ∃ o₁ o₂ o₃ o₄, address.octets = [o₁, o₂, o₃, o₄] := by
  obtain ⟨octets, hfour⟩ := address
  rcases octets with _ | ⟨o₁, _ | ⟨o₂, _ | ⟨o₃, _ | ⟨o₄, _ | ⟨o₅, rest⟩⟩⟩⟩⟩
  case cons.cons.cons.cons.nil => exact ⟨o₁, o₂, o₃, o₄, rfl⟩
  all_goals simp at hfour

section Writers

theorem wireLabel?_nil : wireLabel? [] = none := rfl

theorem wireLabel?_of_ne {label : Str} (h : label ≠ []) :
    ∃ hbytes, wireLabel? label = some ⟨(Utf8.encode label).take 63, hbytes⟩ := by
  have hpos : 0 < (Utf8.encode label).length := by
    apply List.length_pos_of_ne_nil
    exact fun h' => h (Utf8.encode_eq_nil.mp h')
  have hbytes : 1 ≤ ((Utf8.encode label).take 63).length ∧
      ((Utf8.encode label).take 63).length ≤ 63 := by
    rw [List.length_take]
    omega
  exact ⟨hbytes, by rw [wireLabel?, dif_pos hbytes]⟩

-- A text without dots is written as one label.
theorem wireName_singleton {label : Str} (hne : label ≠ []) (hdot : '.' ∉ label) :
    ∃ hbytes, wireName label = [⟨(Utf8.encode label).take 63, hbytes⟩] := by
  obtain ⟨hbytes, hwire⟩ := wireLabel?_of_ne hne
  refine ⟨hbytes, ?_⟩
  rw [wireName, List.splitOn_eq_singleton hdot, List.filterMap_cons, hwire]
  rfl

theorem write_label_eq (out : Octets) (label : Str) :
    write_label out label = out ++ Dns.encodeString ((Utf8.encode label).take 63) := by
  have hlen : ((Utf8.encode label).take 63).length = min (Utf8.encode label).length 63 := by
    rw [List.length_take, Nat.min_comm]
  have htake : (Utf8.encode label).take (min (Utf8.encode label).length 63) =
      (Utf8.encode label).take 63 := by
    rw [Nat.min_comm, ← List.take_eq_take_min]
  simp only [write_label, Dns.encodeString, hlen, htake, List.append_assoc, List.singleton_append]

private theorem write_labels_eq (labels : List Str) (out : Octets) :
    (labels.filter (· ≠ [])).foldl write_label out =
      out ++ (labels.filterMap wireLabel?).flatMap fun label => Dns.encodeString label.1 := by
  induction labels generalizing out with
  | nil => simp
  | cons label labels ih =>
      by_cases hlabel : label = []
      · subst hlabel
        simp only [List.filterMap_cons, wireLabel?_nil]
        exact ih out
      · obtain ⟨hbytes, hwire⟩ := wireLabel?_of_ne hlabel
        rw [List.filter_cons_of_pos (by simpa using hlabel), List.foldl_cons, write_label_eq, ih,
          List.filterMap_cons, hwire]
        simp only [List.flatMap_cons, List.append_assoc]

theorem write_name_eq (out : Octets) (name : Str) :
    write_name out name = out ++ Dns.encodeName (wireName name) := by
  rw [write_name, write_labels_eq, wireName, Dns.encodeName, List.append_assoc]

theorem write_data_eq (out : Octets) (r : Record) :
    write_data out r = out ++ r.wireData.encode := by
  cases r with
  | A name address =>
      obtain ⟨o₁, o₂, o₃, o₄, hfour⟩ := address.exists_octets
      simp [write_data, Record.wireData, Dns.RData.encode, hfour]
  | Ptr name target => exact write_name_eq out target
  | Txt name text =>
      have hlen : ((Utf8.encode text).take 255).length = min (Utf8.encode text).length 255 := by
        rw [List.length_take, Nat.min_comm]
      have htake : (Utf8.encode text).take (min (Utf8.encode text).length 255) =
          (Utf8.encode text).take 255 := by
        rw [Nat.min_comm, ← List.take_eq_take_min]
      simp only [write_data, Record.wireData, Dns.RData.encode, wireText, List.flatMap_cons,
        List.flatMap_nil, List.append_nil, Dns.encodeString, hlen, htake, List.append_assoc,
        List.singleton_append]
  | Srv name port target =>
      simp only [write_data, write_name_eq, Record.wireData, Dns.RData.encode, List.append_assoc]

-- Going back to the place left for the length overwrites exactly the two bytes put there.
private theorem backpatch (before data : Octets) (len : UInt16) :
    (before ++ Bytes.be16 0 ++ data).take before.length ++ Bytes.be16 len ++
        (before ++ Bytes.be16 0 ++ data).drop (before.length + 2) =
      before ++ (Bytes.be16 len ++ data) := by
  have htake : (before ++ Bytes.be16 0 ++ data).take before.length = before := by
    rw [List.append_assoc, List.take_left]
  have hdrop : (before ++ Bytes.be16 0 ++ data).drop (before.length + 2) = data := by
    have hlen : (before ++ Bytes.be16 0).length = before.length + 2 := by simp
    rw [← hlen, List.drop_left]
  rw [htake, hdrop, List.append_assoc]

theorem write_record_eq (out : Octets) (r : Record) :
    write_record out r = out ++ r.wire.encode := by
  have hhead : r.name_and_type = (r.owner, r.wireData.rtype) := by cases r <;> rfl
  have hlen (before : Octets) :
      (before ++ r.wireData.encode).length - before.length = r.wireData.encode.length := by
    rw [List.length_append, Nat.add_sub_cancel_left]
  simp only [write_record, hhead, write_data_eq, hlen, backpatch]
  simp only [write_name_eq, Dns.Record.encode, Record.wire, List.append_assoc]

private theorem write_records_eq (records : List Record) (out : Octets) :
    records.foldl write_record out = out ++ (records.map Record.wire).flatMap Dns.Record.encode := by
  induction records generalizing out with
  | nil => simp
  | cons r records ih =>
      rw [List.foldl_cons, ih, write_record_eq, List.map_cons, List.flatMap_cons, List.append_assoc]

theorem build_reply_eq (q : Query) (rcode : UInt16) (records : List Record) :
    build_reply q rcode records = (replyMessage q (replyFlags q.recursion_desired rcode) records).encode := by
  simp only [build_reply, write_records_eq, write_name_eq, Dns.Message.encode, replyMessage,
    replyFlags, Dns.Question.encode, List.length_map, List.length_cons, List.length_nil,
    List.flatMap_cons, List.flatMap_nil, List.append_nil, List.append_assoc]
  rfl

end Writers

end AltKeeper.Dnssd
