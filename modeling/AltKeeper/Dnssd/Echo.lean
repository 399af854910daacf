import AltKeeper.Dnssd.Reply

-- Names that travel: what the server reads when a client sends back a name it was given.
namespace AltKeeper.Dnssd

section Heard

def heardLabel (label : Dns.Label) : Str := Str.to_ascii_lowercase (Utf8.lossy label.1)

def heard (name : Dns.Name) : Str := ['.'].intercalate (name.map heardLabel)

theorem read_labels_encodeName (before after : Octets) (name : Dns.Name) (room : Nat) :
    read_labels (before ++ (Dns.encodeName name ++ after)) room before.length =
      if name.length < room then
        some (name.map heardLabel, before.length + (Dns.encodeName name).length)
      else none := by
  induction name generalizing before room with
  | nil =>
      cases room with
      | zero => rfl
      | succ room =>
          have hget : (before ++ (Dns.encodeName [] ++ after))[before.length]? = some 0 := by
            simp [Dns.encodeName]
          rw [read_labels, hget, if_pos (by simp)]
          rfl
  | cons label name ih =>
      cases room with
      | zero => rfl
      | succ room =>
          obtain ⟨bytes, hmin, hmax⟩ := label
          have hlen := Dns.ofNat_length_toNat bytes (by omega)
          have hzero : UInt8.ofNat bytes.length ≠ 0 := by
            intro h
            rw [h] at hlen
            have : (0 : UInt8).toNat = 0 := rfl
            omega
          have hlarge : ¬ (0xC0 ≤ UInt8.ofNat bytes.length ∨ 63 < UInt8.ofNat bytes.length) := by
            rw [UInt8.le_iff_toNat_le, UInt8.lt_iff_toNat_lt, hlen]
            have h1 : (0xC0 : UInt8).toNat = 192 := rfl
            have h2 : (63 : UInt8).toNat = 63 := rfl
            omega
          -- the rest of the name is read with this label behind it
          have hrest := ih (before ++ Dns.encodeString bytes) room
          have hstop : (before ++ Dns.encodeString bytes).length = before.length + 1 + bytes.length := by
            rw [List.length_append, Dns.encodeString, List.length_cons]
            omega
          have hname : Dns.encodeName (⟨bytes, hmin, hmax⟩ :: name) =
              UInt8.ofNat bytes.length :: (bytes ++ Dns.encodeName name) := by
            simp [Dns.encodeName, Dns.encodeString]
          have happ : before ++ Dns.encodeString bytes ++ (Dns.encodeName name ++ after) =
              before ++ (Dns.encodeName (⟨bytes, hmin, hmax⟩ :: name) ++ after) := by
            simp [hname, Dns.encodeString]
          rw [happ, hstop] at hrest
          have hget : (before ++ (Dns.encodeName (⟨bytes, hmin, hmax⟩ :: name) ++ after))[before.length]? =
              some (UInt8.ofNat bytes.length) := by simp [hname]
          have hdrop : (before ++ (Dns.encodeName (⟨bytes, hmin, hmax⟩ :: name) ++ after)).drop
              (before.length + 1) = bytes ++ (Dns.encodeName name ++ after) := by simp [hname]
          have hshort : ¬ (before ++ (Dns.encodeName (⟨bytes, hmin, hmax⟩ :: name) ++ after)).length <
              before.length + 1 + bytes.length := by
            simp only [hname, List.length_append, List.length_cons]
            omega
          rw [read_labels, hget]
          simp only [if_neg hzero, if_neg hlarge, hlen, if_neg hshort, hdrop, List.take_left, hrest]
          by_cases hroom : name.length < room
          · have hnext : before.length + 1 + bytes.length + (Dns.encodeName name).length =
                before.length + (Dns.encodeName (⟨bytes, hmin, hmax⟩ :: name)).length := by
              simp only [hname, List.length_append, List.length_cons]
              omega
            rw [if_pos hroom, if_pos (by simpa using hroom), ← hnext]
            rfl
          · rw [if_neg hroom, if_neg (by simpa using hroom)]

theorem u16_at_append (before after : Octets) (n : UInt16) :
    u16_at (before ++ (Bytes.be16 n ++ after)) before.length = n := by
  have h0 : (before ++ (Bytes.be16 n ++ after)).getD before.length 0 = UInt8.ofNat (n.toNat / 256) := by
    simp [List.getD_eq_getElem?_getD, Bytes.be16]
  have h1 : (before ++ (Bytes.be16 n ++ after)).getD (before.length + 1) 0 = UInt8.ofNat n.toNat := by
    simp [List.getD_eq_getElem?_getD, Bytes.be16]
  rw [u16_at, h0, h1, Bytes.ofBe16_be16]

-- A client's question, as a message.
def question (id : UInt16) (recursion_desired : Bool) (name : Dns.Name) (qtype : UInt16) :
    Dns.Message :=
  { id
    flags := if recursion_desired then 0x0100 else 0
    questions := [{ name, qtype, qclass := CLASS_IN }]
    answers := []
    authorities := []
    additionals := [] }

-- A name of more than 32 labels is not read at all.
theorem parse_query_question (id : UInt16) (rd : Bool) (name : Dns.Name) (qtype : UInt16) :
    parse_query (question id rd name qtype).encode =
      if name.length ≤ 32 then
        some { id, recursion_desired := rd, name := heard name, qtype, qclass := CLASS_IN }
      else none := by
  let flags : UInt16 := if rd then 0x0100 else 0
  let header := Bytes.be16 id ++ Bytes.be16 flags ++ Bytes.be16 1 ++ Bytes.be16 0 ++ Bytes.be16 0 ++
    Bytes.be16 0
  obtain ⟨buf, hbuf⟩ : ∃ buf, buf =
      header ++ (Dns.encodeName name ++ (Bytes.be16 qtype ++ Bytes.be16 CLASS_IN)) := ⟨_, rfl⟩
  have hencode : (question id rd name qtype).encode = buf := by
    simp [hbuf, Dns.Message.encode, question, header, flags, Dns.Question.encode]
  have hheader : header.length = 12 := rfl
  have hlen : buf.length = 12 + (Dns.encodeName name).length + 4 := by
    simp only [hbuf, List.length_append, hheader, Bytes.length_be16]
    omega
  have hid : u16_at buf 0 = id := by rw [hbuf]; exact Bytes.ofBe16_be16 id
  have hfl : u16_at buf 2 = flags := by rw [hbuf]; exact Bytes.ofBe16_be16 flags
  have hqd : u16_at buf 4 = 1 := by rw [hbuf]; exact Bytes.ofBe16_be16 1
  have hname := read_labels_encodeName header (Bytes.be16 qtype ++ Bytes.be16 CLASS_IN) name 33
  have hqtype := u16_at_append (header ++ Dns.encodeName name) (Bytes.be16 CLASS_IN) qtype
  have hqclass := u16_at_append (header ++ Dns.encodeName name ++ Bytes.be16 qtype) [] CLASS_IN
  simp only [List.append_assoc, List.append_nil, List.length_append, hheader, Bytes.length_be16,
    ← Nat.add_assoc, ← hbuf] at hname hqtype hqclass
  have hflags : flags &&& 0x8000 = 0 ∧ (flags >>> 11) &&& 0xF = 0 ∧ (flags &&& 0x0100 != 0) = rd := by
    cases rd <;> decide
  rw [hencode, parse_query, if_neg (by omega), hid, hfl, hqd, read_name, hname]
  by_cases hcount : name.length ≤ 32
  · rw [if_pos (Nat.lt_succ_of_le hcount), if_pos hcount]
    simp only [Option.map_some, hflags.1, hflags.2.1, hflags.2.2, hqtype, hqclass]
    rw [if_neg (show ¬ buf.length < 12 + (Dns.encodeName name).length + 4 by omega)]
    rfl
  · rw [if_neg (show ¬ name.length < 33 by omega), if_neg hcount]
    simp only [Option.map_none, ite_self]

end Heard

section Survival

theorem heard_append {a b : Dns.Name} (ha : a ≠ []) (hb : b ≠ []) :
    heard (a ++ b) = heard a ++ '.' :: heard b := by
  unfold heard
  rw [List.map_append, Split.intercalate_append (by simpa using ha) (by simpa using hb)]

theorem wireName_append (a b : Str) : wireName (a ++ '.' :: b) = wireName a ++ wireName b := by
  unfold wireName
  rw [List.splitOn_append_cons_self, List.filterMap_append]

theorem length_wireName {name : Str} (h : WellLabelled name) :
    (wireName name).length = (name.splitOn '.').length := by
  have hspells := congrArg List.length (spells_wireName h)
  simpa using hspells

theorem wireName_ne_nil {name : Str} (h : WellLabelled name) : wireName name ≠ [] := by
  intro hnil
  have hlen := length_wireName h
  rw [hnil] at hlen
  exact List.splitOn_ne_nil '.' name (List.length_eq_zero_iff.mp hlen.symm)

theorem heardLabels_wireName {name : Str} (h : WellLabelled name) :
    (wireName name).map heardLabel = (name.splitOn '.').map Str.to_ascii_lowercase := by
  have hlabel : heardLabel = (fun bytes => Str.to_ascii_lowercase (Utf8.lossy bytes)) ∘ Subtype.val := rfl
  rw [hlabel, ← List.map_map, spells_wireName h, List.map_map]
  exact List.map_congr_left fun label _ => congrArg Str.to_ascii_lowercase (Utf8.lossy_encode label)

theorem heard_wireName {name : Str} (h : WellLabelled name) :
    heard (wireName name) = name.to_ascii_lowercase := by
  rw [heard, heardLabels_wireName h, ← Str.splitOn_to_ascii_lowercase, List.intercalate_splitOn]

theorem wellLabelled_to_ascii_lowercase {name : Str} :
    WellLabelled name.to_ascii_lowercase ↔ WellLabelled name := by
  unfold WellLabelled
  rw [Str.splitOn_to_ascii_lowercase, List.forall_mem_map]
  simp only [Str.len_to_ascii_lowercase]

-- The name the server published is the name it reads when a client sends it back.
def Survives (name : Str) : Prop := (wireName name).length ≤ 32 ∧ heard (wireName name) = name

-- A label cut at 63 bytes still reads as it was when the cut only shortens a final replacement.
def LabelSurvives (label : Str) : Prop :=
  label.len ≤ 63 ∨ ∃ kept, label = kept ++ [Utf8.REPLACEMENT] ∧ Str.len kept ≤ 62

theorem heard_label_iff {label : Str} (hlower : label.to_ascii_lowercase = label) :
    Str.to_ascii_lowercase (Utf8.lossy ((Utf8.encode label).take 63)) = label ↔ LabelSurvives label := by
  by_cases hlen : label.len ≤ 63
  · rw [List.take_of_length_le hlen, Utf8.lossy_encode, hlower]
    exact ⟨fun _ => .inl hlen, fun _ => rfl⟩
  · obtain ⟨kept, c, rest, rfl, hle, hlt, hlossy⟩ :=
      Utf8.lossy_encode_take label 63 (Nat.lt_of_not_le hlen)
    rw [Str.to_ascii_lowercase_append] at hlower
    have hkept : Str.to_ascii_lowercase kept = kept :=
      List.append_inj_left hlower (Str.length_to_ascii_lowercase kept)
    rw [hlossy, Str.to_ascii_lowercase_append, hkept]
    unfold LabelSurvives
    rw [List.append_cancel_left_eq]
    constructor
    · intro heq
      by_cases hcut : (Utf8.encode kept).length = 63
      · rw [if_pos hcut] at heq
        cases heq
      · rw [if_neg hcut] at heq
        obtain ⟨hc, hrest⟩ := List.cons.inj heq
        have hrepl : Char.toLower Utf8.REPLACEMENT = Utf8.REPLACEMENT := by decide
        refine .inr ⟨kept, by rw [← hc, ← hrest, hrepl]; rfl, ?_⟩
        unfold Str.len
        omega
    · rintro (hshort | ⟨kept', heq, hshort⟩)
      · exact absurd hshort hlen
      · rcases List.eq_nil_or_concat rest with rfl | ⟨rest', last, rfl⟩
        · obtain ⟨rfl, hc⟩ := List.append_inj' heq rfl
          rw [if_neg (by unfold Str.len at hshort; omega), hc]
          decide
        · -- a longer cut would leave more than 62 bytes before the last character
          rw [List.concat_eq_append, ← List.cons_append, ← List.append_assoc] at heq
          obtain ⟨rfl, -⟩ := List.append_inj' heq rfl
          unfold Str.len at hshort
          rw [Utf8.encode_append, List.length_append, Utf8.length_encode_cons] at hshort
          omega

-- A name of one label followed by labels that fit the wire.
theorem survives_cons_iff {label rest : Str} (hne : label ≠ []) (hdot : '.' ∉ label)
    (hlower : label.to_ascii_lowercase = label) (hrest : WellLabelled rest)
    (hrestLower : rest.to_ascii_lowercase = rest) :
    Survives (label ++ '.' :: rest) ↔
      (rest.splitOn '.').length ≤ 31 ∧ LabelSurvives label := by
  obtain ⟨hbytes, hname⟩ := wireName_singleton hne hdot
  have hheard : heard (wireName label) =
      Str.to_ascii_lowercase (Utf8.lossy ((Utf8.encode label).take 63)) := by
    rw [hname]
    simp [heard, heardLabel]
  rw [Survives, wireName_append, heard_append (by simp [hname]) (wireName_ne_nil hrest),
    heard_wireName hrest, hrestLower, List.append_cancel_right_eq, hheard, heard_label_iff hlower,
    List.length_append, length_wireName hrest, hname, List.length_singleton]
  constructor
  · rintro ⟨hcount, hlabel⟩
    exact ⟨by omega, hlabel⟩
  · rintro ⟨hcount, hlabel⟩
    exact ⟨by omega, hlabel⟩

-- What the writer keeps of a name is its labels that are not empty.
theorem heardLabels_filter {name : Str} (hshort : ∀ label ∈ name.splitOn '.', Str.len label ≤ 63)
    (hlower : name.to_ascii_lowercase = name) :
    (wireName name).map heardLabel = (name.splitOn '.').filter (· ≠ []) := by
  have hstable : ∀ label ∈ name.splitOn '.', Str.to_ascii_lowercase label = label := by
    have hmap := Str.splitOn_to_ascii_lowercase name
    rw [hlower] at hmap
    exact fun label hlabel => List.map_eq_map_iff.mp (hmap.symm.trans (List.map_id _).symm) label hlabel
  unfold wireName
  generalize name.splitOn '.' = labels at hshort hstable ⊢
  induction labels with
  | nil => rfl
  | cons label labels ih =>
      have ih := ih (fun l hl => hshort l (List.mem_cons_of_mem _ hl))
        fun l hl => hstable l (List.mem_cons_of_mem _ hl)
      by_cases hlabel : label = []
      · subst hlabel
        simpa [List.filterMap_cons, wireLabel?_nil] using ih
      · obtain ⟨hbytes, hwire⟩ := wireLabel?_of_ne hlabel
        have hfit := hshort label List.mem_cons_self
        rw [List.filterMap_cons, hwire, List.map_cons, ih,
          List.filter_cons_of_pos (by simpa using hlabel)]
        simp only [heardLabel, List.take_of_length_le hfit, Utf8.lossy_encode,
          hstable label List.mem_cons_self]

-- A name of short labels, some of them perhaps empty, followed by labels that fit the wire.
theorem survives_append_iff {name rest : Str} (hshort : ∀ label ∈ name.splitOn '.', Str.len label ≤ 63)
    (hne : ∃ label ∈ name.splitOn '.', label ≠ []) (hlower : name.to_ascii_lowercase = name)
    (hrest : WellLabelled rest) (hrestLower : rest.to_ascii_lowercase = rest) :
    Survives (name ++ '.' :: rest) ↔
      (name.splitOn '.').length + (rest.splitOn '.').length ≤ 32 ∧ [] ∉ name.splitOn '.' := by
  have hheard := heardLabels_filter hshort hlower
  have hfilter : (name.splitOn '.').filter (· ≠ []) ≠ [] := by
    obtain ⟨label, hmem, hlabel⟩ := hne
    exact List.ne_nil_of_mem (List.mem_filter.mpr ⟨hmem, by simpa using hlabel⟩)
  have hwire : wireName name ≠ [] := by
    intro hnil
    rw [hnil] at hheard
    exact hfilter hheard.symm
  have hlength : (wireName name).length = ((name.splitOn '.').filter (· ≠ [])).length := by
    rw [← hheard, List.length_map]
  have hkept : [] ∉ name.splitOn '.' → (name.splitOn '.').filter (· ≠ []) = name.splitOn '.' := by
    intro hempty
    rw [List.filter_eq_self]
    intro label hlabel
    have : label ≠ [] := fun h => hempty (h ▸ hlabel)
    simpa using this
  have hnames : heard (wireName name) = name ↔ [] ∉ name.splitOn '.' := by
    rw [heard, hheard]
    constructor
    · intro heq
      have hsplit := congrArg (List.splitOn '.') heq
      rw [List.splitOn_intercalate '.' (fun label hlabel hdot =>
        (Split.mem_of_mem_piece (List.mem_filter.mp hlabel).1 '.' hdot).2 rfl) hfilter] at hsplit
      rw [← hsplit]
      simp
    · intro hempty
      rw [hkept hempty, List.intercalate_splitOn]
  rw [Survives, wireName_append, heard_append hwire (wireName_ne_nil hrest), heard_wireName hrest,
    hrestLower, List.append_cancel_right_eq, hnames, List.length_append, length_wireName hrest, hlength]
  constructor
  · rintro ⟨hcount, hempty⟩
    rw [hkept hempty] at hcount
    exact ⟨hcount, hempty⟩
  · rintro ⟨hcount, hempty⟩
    rw [hkept hempty]
    exact ⟨hcount, hempty⟩

end Survival

end AltKeeper.Dnssd
