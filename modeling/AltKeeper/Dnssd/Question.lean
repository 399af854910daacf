import AltKeeper.Dnssd.Grammar

-- The question a reply carries, beside the one it answers: whether it is the same, byte for
-- byte, and how long it makes the reply.
namespace AltKeeper.Dnssd

-- The bytes of the first question of a message, and its labels.
def question_section (msg : Octets) : Option Octets :=
  (Dns.decodeQuestion (msg.drop 12)).map fun (_, rest) =>
    (msg.drop 12).take ((msg.drop 12).length - rest.length)

def question_labels (msg : Octets) : Dns.Name :=
  match Dns.decodeQuestion (msg.drop 12) with
  | none => []
  | some (question, _) => question.name

-- UTF-8 text with no dot and no ASCII capital in it; a label of 63 bytes may also end in a
-- U+FFFD of which only the first bytes are there.
def Copied (label : Dns.Label) : Prop :=
  ∃ text : Str, (∀ c ∈ text, c ≠ '.' ∧ c.isUpper = false) ∧
    (label.1 = Utf8.encode text ∨
      label.1.length = 63 ∧ ∃ cut ∈ [[0xEF], [0xEF, 0xBF]], label.1 = Utf8.encode text ++ cut)

-- The bytes that a label of the question takes in the reply: its parts between dots, each with
-- its length byte, U+FFFD (three bytes) for every ill-formed sequence, and 63 bytes at most.
def copied_size (label : Dns.Label) : Nat :=
  (((label.1.splitOn 0x2E).filter (· ≠ [])).map fun part => 1 + min 63 (Str.len (Utf8.lossy part))).sum

section Sections

theorem question_of_split {header : Octets} (hheader : header.length = 12) (question : Dns.Question)
    (rest : Octets) :
    question_section (header ++ (question.encode ++ rest)) = some question.encode ∧
      question_labels (header ++ (question.encode ++ rest)) = question.name := by
  have hdrop : (header ++ (question.encode ++ rest)).drop 12 = question.encode ++ rest := by
    rw [← hheader, List.drop_left]
  have hlen : (question.encode ++ rest).length - rest.length = question.encode.length := by
    rw [List.length_append, Nat.add_sub_cancel]
  constructor
  · simp only [question_section, hdrop, Dns.decodeQuestion_encode, Option.map_some, hlen, List.take_left]
  · rw [question_labels, hdrop, Dns.decodeQuestion_encode]

theorem Asks.question {buf : Octets} {id flags : UInt16} {question : Dns.Question}
    (h : Asks buf id flags question) :
    question_section buf = some question.encode ∧ question_labels buf = question.name := by
  obtain ⟨counts, rest, hsix, hbuf⟩ := h.bytes
  have hheader : (Bytes.be16 id ++ (Bytes.be16 flags ++ (Bytes.be16 1 ++ counts))).length = 12 := by
    simp only [List.length_append, Bytes.length_be16, hsix]
  have hsplit := question_of_split hheader question rest
  simp only [List.append_assoc, ← hbuf] at hsplit
  exact hsplit

theorem handle_question {z : Zone} {query reply : Octets} (h : handle z query = some reply) :
    ∃ q, parse_query query = some q ∧
      question_section reply =
        some (Dns.Question.encode { name := wireName q.name, qtype := q.qtype, qclass := q.qclass }) := by
  obtain ⟨q, flags, records, hq, rfl, -, -⟩ := handle_encode h
  refine ⟨q, hq, ?_⟩
  have hheader : (Bytes.be16 q.id ++ (Bytes.be16 flags ++ (Bytes.be16 1 ++
      (Bytes.be16 (UInt16.ofNat (records.map Record.wire).length) ++ (Bytes.be16 0 ++
        Bytes.be16 0))))).length = 12 := rfl
  have hsplit := (question_of_split hheader
    { name := wireName q.name, qtype := q.qtype, qclass := q.qclass }
    ((records.map Record.wire).flatMap Dns.Record.encode)).1
  rw [← hsplit]
  apply congrArg question_section
  simp only [Dns.Message.encode, replyMessage, List.flatMap_cons, List.flatMap_nil, List.append_nil,
    List.append_assoc]
  rfl

end Sections

section Copying

theorem wireName_heard (name : Dns.Name) :
    wireName (heard name) = name.flatMap fun label => wireName (heardLabel label) := by
  by_cases hnil : name = []
  · rw [hnil]
    rfl
  · rw [wireName, heard, Split.intercalate_eq_flatMap _ (by simpa using hnil), List.flatMap_map,
      List.filterMap_flatMap]
    rfl

theorem heardLabel_ne_nil (label : Dns.Label) : heardLabel label ≠ [] := by
  obtain ⟨bytes, hmin, hmax⟩ := label
  intro hnil
  have hlossy : Utf8.lossy bytes = [] := by
    simpa [heardLabel, Str.to_ascii_lowercase] using hnil
  cases bytes with
  | nil => simp at hmin
  | cons b rest => exact Utf8.lossy_cons_ne_nil b rest hlossy

theorem not_mem_heardLabel {label : Dns.Label} (h : 0x2E ∉ label.1) : '.' ∉ heardLabel label := by
  have hdot : '.' ∉ Utf8.lossy label.1 :=
    Utf8.not_mem_lossyFrom (by decide) (by decide) (by simp) h
  intro hmem
  obtain ⟨c, hc, hlower⟩ := List.mem_map.mp hmem
  rw [(Str.toLower_eq_iff (by decide) (by decide) c).mp hlower] at hc
  exact hdot hc

-- No label that is written holds a dot.
theorem not_mem_wireName {name : Str} : ∀ label ∈ wireName name, 0x2E ∉ label.1 := by
  intro label hlabel hmem
  obtain ⟨piece, hpiece, hwire⟩ := List.mem_filterMap.mp hlabel
  by_cases hnil : piece = []
  · rw [hnil, wireLabel?_nil] at hwire
    cases hwire
  · obtain ⟨hbytes, hwire'⟩ := wireLabel?_of_ne hnil
    rw [hwire'] at hwire
    cases hwire
    have hbyte : UInt8.ofNat '.'.toNat ∈ Utf8.encode piece := List.mem_of_mem_take hmem
    have hdot := Utf8.mem_encode_ascii (by decide) (by decide) hbyte
    exact (Split.mem_of_mem_piece hpiece '.' hdot).2 rfl

theorem copied_iff {label : Dns.Label} : wireName (heardLabel label) = [label] ↔ Copied label := by
  constructor
  · intro hwire
    have hbyte : 0x2E ∉ label.1 := not_mem_wireName label (by rw [hwire]; exact List.mem_singleton_self _)
    have hdot := not_mem_heardLabel hbyte
    obtain ⟨hbytes, hname⟩ := wireName_singleton (heardLabel_ne_nil label) hdot
    have hlower : (heardLabel label).to_ascii_lowercase = heardLabel label :=
      Str.to_ascii_lowercase_idem _
    have hlabel : label.1 = (Utf8.encode (heardLabel label)).take 63 := by
      rw [hname, List.cons.injEq] at hwire
      exact (congrArg Subtype.val hwire.1).symm
    have hplain : ∀ c ∈ heardLabel label, c ≠ '.' ∧ c.isUpper = false := fun c hc =>
      ⟨fun h => hdot (h ▸ hc), (Str.to_ascii_lowercase_eq_self_iff _).mp hlower c hc⟩
    by_cases hlen : (Utf8.encode (heardLabel label)).length ≤ 63
    · rw [List.take_of_length_le hlen] at hlabel
      exact ⟨heardLabel label, hplain, .inl hlabel⟩
    · -- the text was cut, and read again it is the same: what was cut is a replacement
      have hsame : Str.to_ascii_lowercase
          (Utf8.lossy ((Utf8.encode (heardLabel label)).take 63)) = heardLabel label := by
        rw [← hlabel]
        rfl
      obtain hshort | ⟨kept, hkept, hle⟩ := (heard_label_iff hlower).mp hsame
      · exact absurd hshort hlen
      have hreplacement : Utf8.encode [Utf8.REPLACEMENT] = [0xEF, 0xBF, 0xBD] := by decide
      have hencode : Utf8.encode (heardLabel label) = Utf8.encode kept ++ [0xEF, 0xBF, 0xBD] := by
        rw [hkept, Utf8.encode_append, hreplacement]
      have hsize : (Utf8.encode kept).length = 61 ∨ (Utf8.encode kept).length = 62 := by
        rw [hencode, List.length_append, List.length_cons, List.length_cons, List.length_singleton] at hlen
        unfold Str.len at hle
        omega
      refine ⟨kept, fun c hc => hplain c (by rw [hkept]; exact List.mem_append_left _ hc), .inr ⟨?_, ?_⟩⟩
      · rw [hlabel, List.length_take]
        omega
      · rw [hlabel, hencode, List.take_append, List.take_of_length_le (by omega)]
        rcases hsize with hsize | hsize <;> simp [hsize]
  · rintro ⟨text, hplain, hcase⟩
    obtain ⟨bytes, hmin, hmax⟩ := label
    have hlower : text.to_ascii_lowercase = text :=
      (Str.to_ascii_lowercase_eq_self_iff text).mpr fun c hc => (hplain c hc).2
    have hdot : '.' ∉ text := fun h => (hplain '.' h).1 rfl
    obtain hwhole | ⟨hlen, cut, hcut, hbytes⟩ := hcase
    · simp only at hwhole
      subst hwhole
      have hne : text ≠ [] := by
        rintro rfl
        simp at hmin
      obtain ⟨hbytes, hname⟩ := wireName_singleton hne hdot
      simp only [heardLabel, Utf8.lossy_encode, hlower, hname, List.take_of_length_le hmax]
    · simp only at hlen hbytes
      have hreplacement : '.' ∉ text ++ [Utf8.REPLACEMENT] := by
        rw [List.mem_append, not_or]
        exact ⟨hdot, by decide⟩
      have hlossy : Utf8.lossy bytes = text ++ [Utf8.REPLACEMENT] := by
        rw [hbytes, Utf8.lossy, Utf8.lossyFrom_encode]
        simp only [List.mem_cons, List.not_mem_nil, or_false] at hcut
        rcases hcut with rfl | rfl <;> rfl
      have hheard : heardLabel ⟨bytes, hmin, hmax⟩ = text ++ [Utf8.REPLACEMENT] := by
        rw [heardLabel, hlossy, Str.to_ascii_lowercase_append, hlower]
        rfl
      have hne : text ++ [Utf8.REPLACEMENT] ≠ [] := by simp
      obtain ⟨hlabel, hname⟩ := wireName_singleton hne hreplacement
      have htake : (Utf8.encode (text ++ [Utf8.REPLACEMENT])).take 63 = bytes := by
        have hencode : Utf8.encode [Utf8.REPLACEMENT] = [0xEF, 0xBF, 0xBD] := by decide
        rw [Utf8.encode_append, hencode, hbytes, List.take_append]
        rw [hbytes, List.length_append] at hlen
        simp only [List.mem_cons, List.not_mem_nil, or_false] at hcut
        rcases hcut with rfl | rfl
        · have hsize : (Utf8.encode text).length = 62 := by simpa using hlen
          rw [List.take_of_length_le (by omega), hsize]
          rfl
        · have hsize : (Utf8.encode text).length = 61 := by simpa using hlen
          rw [List.take_of_length_le (by omega), hsize]
          rfl
      rw [hheard, hname]
      simp only [htake]

private theorem copied_of_written {name : Dns.Name}
    (hsingle : ∀ label ∈ name, ∃ label', wireName (heardLabel label) = [label'])
    (heq : (name.flatMap fun label => wireName (heardLabel label)) = name) :
    ∀ label ∈ name, Copied label := by
  induction name with
  | nil => simp
  | cons first name ih =>
      obtain ⟨label', hfirst⟩ := hsingle first List.mem_cons_self
      rw [List.flatMap_cons, hfirst, List.singleton_append, List.cons.injEq] at heq
      obtain ⟨rfl, heq⟩ := heq
      intro label hlabel
      rcases List.mem_cons.mp hlabel with rfl | hlabel
      · exact copied_iff.mp hfirst
      · exact ih (fun l hl => hsingle l (List.mem_cons_of_mem _ hl)) heq label hlabel

theorem wireName_heard_eq_iff (name : Dns.Name) :
    wireName (heard name) = name ↔ ∀ label ∈ name, Copied label := by
  rw [wireName_heard]
  constructor
  · intro heq
    -- what is written has no dots, so each label of `name` is written as one label
    have hsingle : ∀ label ∈ name, ∃ label', wireName (heardLabel label) = [label'] := by
      intro label hlabel
      have hmem : label ∈ name.flatMap fun label => wireName (heardLabel label) := by rwa [heq]
      obtain ⟨label', -, hfrom⟩ := List.mem_flatMap.mp hmem
      have hdot := not_mem_heardLabel (not_mem_wireName label hfrom)
      obtain ⟨hbytes, hname⟩ := wireName_singleton (heardLabel_ne_nil label) hdot
      exact ⟨_, hname⟩
    exact copied_of_written hsingle heq
  · intro hcopied
    induction name with
    | nil => rfl
    | cons label name ih =>
        rw [List.flatMap_cons, copied_iff.mpr (hcopied label List.mem_cons_self),
          ih fun l hl => hcopied l (List.mem_cons_of_mem _ hl)]
        rfl

theorem encodeName_injective {name name' : Dns.Name} (h : Dns.encodeName name = Dns.encodeName name') :
    name = name' := by
  have h1 := Dns.decodeName_encodeName name []
  rw [h, Dns.decodeName_encodeName name' []] at h1
  cases h1
  rfl

-- The question comes back as it was sent exactly when all its labels do.
theorem question_copied_iff (z : Zone) (query : Octets) (h : (parse_query query).isSome = true) :
    ∃ reply, handle z query = some reply ∧
      (question_section reply = question_section query ↔
        ∀ label ∈ question_labels query, Copied label) := by
  obtain ⟨q, hq⟩ := Option.isSome_iff_exists.mp h
  obtain ⟨id, flags, question, hasks, rfl⟩ := parse_query_asks hq
  obtain ⟨hsection, hlabels⟩ := hasks.question
  refine ⟨_, handle_of_query hq, ?_⟩
  obtain ⟨q', hq', hreply⟩ := handle_question (handle_of_query (z := z) hq)
  obtain rfl : asked id flags question = q' := Option.some.inj (hq.symm.trans hq')
  rw [hreply, hsection, hlabels, ← wireName_heard_eq_iff]
  constructor
  · intro heq
    have hencode := Option.some.inj heq
    simp only [Dns.Question.encode, asked, List.append_cancel_right_eq] at hencode
    exact encodeName_injective hencode
  · intro hname
    simp only [asked, hname]

-- A client that varies the case of the letters.
def shouted : Octets := domanda "_ALTSERVER._tcp.casa.internal".toList TYPE_PTR

theorem question_copied_not_shouted : (parse_query shouted).isSome = true ∧
    ∃ reply, handle zona shouted = some reply ∧
      question_section reply ≠ question_section shouted := by
  have hsome : (handle zona shouted).isSome = true := by decide +kernel
  obtain ⟨reply, hreply⟩ := Option.isSome_iff_exists.mp hsome
  have hdiffers : (handle zona shouted).bind question_section ≠ question_section shouted := by
    decide +kernel
  rw [hreply] at hdiffers
  exact ⟨by decide +kernel, reply, hreply, hdiffers⟩

theorem question_copied_iff_zona : ∃ reply, handle zona (domanda zona.inst TYPE_ANY) = some reply ∧
    (question_section reply = question_section (domanda zona.inst TYPE_ANY) ↔
      ∀ label ∈ question_labels (domanda zona.inst TYPE_ANY), Copied label) ∧
    question_section reply = question_section (domanda zona.inst TYPE_ANY) := by
  have hsome : (parse_query (domanda zona.inst TYPE_ANY)).isSome = true := by decide +kernel
  have hcopied : (handle zona (domanda zona.inst TYPE_ANY)).bind question_section =
      question_section (domanda zona.inst TYPE_ANY) := by decide +kernel
  obtain ⟨reply, hreply, hiff⟩ := question_copied_iff zona (domanda zona.inst TYPE_ANY) hsome
  rw [hreply] at hcopied
  exact ⟨reply, hreply, hiff, hcopied⟩

end Copying

section Sizes

theorem length_encodeName (name : Dns.Name) :
    (Dns.encodeName name).length = (name.map fun label => 1 + label.1.length).sum + 1 := by
  induction name with
  | nil => rfl
  | cons label name ih =>
      simp only [Dns.encodeName, List.flatMap_cons, Dns.encodeString, List.length_append,
        List.length_cons, List.length_nil, List.map_cons, List.sum_cons] at ih ⊢
      omega

private theorem written_parts (parts : List Octets) :
    (((parts.map fun part => Str.to_ascii_lowercase (Utf8.lossy part)).filterMap wireLabel?).map
        fun label => 1 + label.1.length).sum =
      ((parts.filter (· ≠ [])).map fun part => 1 + min 63 (Str.len (Utf8.lossy part))).sum := by
  induction parts with
  | nil => rfl
  | cons part parts ih =>
      cases part with
      | nil => exact ih
      | cons b part =>
          have hne : Str.to_ascii_lowercase (Utf8.lossy (b :: part)) ≠ [] := by
            simpa [Str.to_ascii_lowercase] using Utf8.lossy_cons_ne_nil b part
          obtain ⟨hbytes, hwire⟩ := wireLabel?_of_ne hne
          have hlen : (Utf8.encode (Str.to_ascii_lowercase (Utf8.lossy (b :: part)))).length =
              Str.len (Utf8.lossy (b :: part)) := Str.len_to_ascii_lowercase _
          rw [List.map_cons, List.filterMap_cons, hwire, List.map_cons, List.sum_cons, ih,
            List.length_take, hlen, List.filter_cons_of_pos (by simp), List.map_cons, List.sum_cons]

theorem length_wireName_heard (name : Dns.Name) :
    ((wireName (heard name)).map fun label => 1 + label.1.length).sum =
      (name.map copied_size).sum := by
  rw [wireName_heard]
  induction name with
  | nil => rfl
  | cons label name ih =>
      have hparts : wireName (heardLabel label) = ((label.1.splitOn 0x2E).map fun part =>
          Str.to_ascii_lowercase (Utf8.lossy part)).filterMap wireLabel? := by
        have hsplit : (Utf8.lossy label.1).splitOn '.' = (label.1.splitOn 0x2E).map Utf8.lossy :=
          Utf8.splitOn_lossy (by decide) (by decide) label.1
        rw [wireName, heardLabel, Str.splitOn_to_ascii_lowercase, hsplit, List.map_map]
        rfl
      rw [List.flatMap_cons, List.map_append, List.sum_append, ih, hparts, written_parts,
        List.map_cons, List.sum_cons]
      rfl

theorem length_replyMessage (q : Query) (flags : UInt16) (records : List Record) :
    (replyMessage q flags records).encode.length = (Dns.encodeName (wireName q.name)).length + 16 +
      ((records.map Record.wire).flatMap Dns.Record.encode).length := by
  simp only [Dns.Message.encode, replyMessage, List.flatMap_cons, List.flatMap_nil, List.append_nil,
    Dns.Question.encode, List.length_append, Bytes.length_be16]
  omega

-- Without answers the reply is its question and 16 bytes, and that is all that can be left out.
theorem handle_length {z : Zone} {query reply : Octets} (h : handle z query = some reply) :
    ∃ id flags question, Asks query id flags question ∧
      (reply.length ≤ MAX_REPLY ↔ (question.name.map copied_size).sum + 17 ≤ MAX_REPLY) := by
  obtain ⟨q, rflags, records, hq, rfl, -, hsent⟩ := handle_encode h
  obtain ⟨id, flags, question, hasks, rfl⟩ := parse_query_asks hq
  have hname : (Dns.encodeName (wireName (asked id flags question).name)).length =
      (question.name.map copied_size).sum + 1 := by
    rw [length_encodeName, asked, length_wireName_heard]
  refine ⟨id, flags, question, hasks, ?_⟩
  rw [length_replyMessage, hname]
  split_ifs at hsent with hfull
  · obtain ⟨rfl, rfl⟩ := hsent
    rw [full_reply, build_reply_eq, length_replyMessage, hname] at hfull
    omega
  · obtain ⟨-, rfl⟩ := hsent
    have hempty : ((([] : List Record).map Record.wire).flatMap Dns.Record.encode).length = 0 := rfl
    omega

theorem reply_fits_iff (z : Zone) (query reply : Octets) (h : handle z query = some reply) :
    reply.length ≤ MAX_REPLY ↔ ((question_labels query).map copied_size).sum ≤ 495 := by
  obtain ⟨id, flags, question, hasks, hfits⟩ := handle_length h
  rw [hfits, hasks.question.2, MAX_REPLY]
  omega

-- Eight labels of 21 bytes that are no text: each byte comes back as three.
def swollen : Octets :=
  (Bytes.be16 0x1234 ++ Bytes.be16 0x0100 ++ Bytes.be16 1 ++ Bytes.be16 0 ++ Bytes.be16 0 ++
    Bytes.be16 0) ++ Dns.Question.encode
      { name := List.replicate 8 ⟨List.replicate 21 0xFF, by decide⟩, qtype := TYPE_A, qclass := CLASS_IN }

theorem reply_swollen : swollen.length ≤ 512 ∧
    ∃ reply, handle zona swollen = some reply ∧ ¬ reply.length ≤ MAX_REPLY := by
  have hsome : (handle zona swollen).isSome = true := by decide +kernel
  obtain ⟨reply, hreply⟩ := Option.isSome_iff_exists.mp hsome
  have hlong : ((handle zona swollen).map List.length).all (· ≤ MAX_REPLY) = false := by decide +kernel
  rw [hreply] at hlong
  exact ⟨by decide +kernel, reply, hreply, by simpa using hlong⟩

theorem reply_fits_iff_zona : ∃ reply, handle zona (domanda zona.inst TYPE_ANY) = some reply ∧
    (reply.length ≤ MAX_REPLY ↔
      ((question_labels (domanda zona.inst TYPE_ANY)).map copied_size).sum ≤ 495) ∧
    reply.length ≤ MAX_REPLY := by
  have hsome : (handle zona (domanda zona.inst TYPE_ANY)).isSome = true := by decide +kernel
  have hroom : ((question_labels (domanda zona.inst TYPE_ANY)).map copied_size).sum ≤ 495 := by
    decide +kernel
  obtain ⟨reply, hreply⟩ := Option.isSome_iff_exists.mp hsome
  have hiff := reply_fits_iff zona _ reply hreply
  exact ⟨reply, hreply, hiff, hiff.mpr hroom⟩

private theorem parts_length (parts : List Str) (hne : parts ≠ []) :
    (parts.map fun part => 1 + Str.len part).sum = 1 + Str.len (['.'].intercalate parts) := by
  induction parts with
  | nil => exact absurd rfl hne
  | cons part parts ih =>
      cases parts with
      | nil => simp
      | cons next parts =>
          have hdot : Str.len ['.'] = 1 := rfl
          rw [List.map_cons, List.sum_cons, ih (by simp), List.intercalate_cons_cons,
            Str.len_append, Str.len_append, hdot]
          omega

-- A label never takes more than the text that is read in it.
theorem copied_size_le (label : Dns.Label) :
    copied_size label ≤ 1 + Str.len (Utf8.lossy label.1) := by
  have hsplit : (Utf8.lossy label.1).splitOn '.' = (label.1.splitOn 0x2E).map Utf8.lossy :=
    Utf8.splitOn_lossy (by decide) (by decide) label.1
  have hparts := parts_length _ (List.splitOn_ne_nil '.' (Utf8.lossy label.1))
  rw [List.intercalate_splitOn, hsplit, List.map_map] at hparts
  rw [← hparts, copied_size]
  generalize label.1.splitOn 0x2E = parts
  induction parts with
  | nil => simp
  | cons part parts ih =>
      by_cases hnil : part = []
      · rw [List.filter_cons_of_neg (by simpa using hnil), List.map_cons, List.sum_cons]
        omega
      · rw [List.filter_cons_of_pos (by simpa using hnil), List.map_cons, List.sum_cons,
          List.map_cons, List.sum_cons, Function.comp_apply]
        omega

theorem sum_copied_size_le {name : Dns.Name}
    (h : ∀ label ∈ name, ∃ text, label.1 = Utf8.encode text) :
    (name.map copied_size).sum < (Dns.encodeName name).length := by
  rw [length_encodeName]
  induction name with
  | nil => simp
  | cons label name ih =>
      have hrest := ih fun l hl => h l (List.mem_cons_of_mem _ hl)
      obtain ⟨text, heq⟩ := h label List.mem_cons_self
      have hlabel := copied_size_le label
      rw [heq, Utf8.lossy_encode, Str.len, ← heq] at hlabel
      rw [List.map_cons, List.map_cons, List.sum_cons, List.sum_cons]
      omega

-- A datagram whose labels are UTF-8 text is answered within the limit.
theorem reply_fits_of_text {z : Zone} {query reply : Octets} (h : handle z query = some reply)
    (hquery : query.length ≤ 512)
    (htext : ∀ label ∈ question_labels query, ∃ text, label.1 = Utf8.encode text) :
    reply.length ≤ MAX_REPLY := by
  obtain ⟨id, flags, question, hasks, hfits⟩ := handle_length h
  rw [hasks.question.2] at htext
  obtain ⟨counts, rest, hsix, hbytes⟩ := hasks.bytes
  have hlt := sum_copied_size_le htext
  have hlen : query.length = 16 + (Dns.encodeName question.name).length + rest.length := by
    simp only [hbytes, Dns.Question.encode, List.length_append, Bytes.length_be16, hsix]
    omega
  rw [hfits, MAX_REPLY]
  omega

end Sizes

end AltKeeper.Dnssd
