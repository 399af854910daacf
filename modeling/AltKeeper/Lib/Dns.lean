import AltKeeper.Lib.Bytes

-- DNS messages without name compression: their parts as types that only hold what the wire
-- format can express, a writer, and a reader that accounts for every byte.
namespace Dns

abbrev Label := { bytes : List UInt8 // 1 ≤ bytes.length ∧ bytes.length ≤ 63 }

abbrev Name := List Label

-- One character-string of a TXT record.
abbrev Text := { bytes : List UInt8 // bytes.length ≤ 255 }

inductive RData where
  | a (octet₁ octet₂ octet₃ octet₄ : UInt8)
  | ptr (target : Name)
  | txt (first : Text) (rest : List Text)
  | srv (priority weight port : UInt16) (target : Name)
  deriving DecidableEq

structure Record where
  name : Name
  rclass : UInt16
  ttl : UInt32
  data : RData
  deriving DecidableEq

structure Question where
  name : Name
  qtype : UInt16
  qclass : UInt16
  deriving DecidableEq

structure Message where
  id : UInt16
  flags : UInt16
  questions : List Question
  answers : List Record
  authorities : List Record
  additionals : List Record
  deriving DecidableEq

section Flags

variable (m : Message)

def Message.isResponse : Bool := m.flags &&& 0x8000 != 0
def Message.opcode : UInt16 := (m.flags >>> 11) &&& 0xF
def Message.isAuthoritative : Bool := m.flags &&& 0x0400 != 0
def Message.isTruncated : Bool := m.flags &&& 0x0200 != 0
def Message.recursionDesired : Bool := m.flags &&& 0x0100 != 0
def Message.rcode : UInt16 := m.flags &&& 0xF

end Flags

def RData.rtype : RData → UInt16
  | .a .. => 1
  | .ptr _ => 12
  | .txt .. => 16
  | .srv .. => 33

section Encode

def encodeString (bytes : List UInt8) : List UInt8 := UInt8.ofNat bytes.length :: bytes

def encodeName (name : Name) : List UInt8 := (name.flatMap fun label => encodeString label.1) ++ [0]

def RData.encode : RData → List UInt8
  | .a o₁ o₂ o₃ o₄ => [o₁, o₂, o₃, o₄]
  | .ptr target => encodeName target
  | .txt first rest => (first :: rest).flatMap fun text => encodeString text.1
  | .srv priority weight port target =>
      Bytes.be16 priority ++ (Bytes.be16 weight ++ (Bytes.be16 port ++ encodeName target))

def Record.encode (r : Record) : List UInt8 :=
  encodeName r.name ++ (Bytes.be16 r.data.rtype ++ (Bytes.be16 r.rclass ++ (Bytes.be32 r.ttl ++
    (Bytes.be16 (UInt16.ofNat r.data.encode.length) ++ r.data.encode))))

def Question.encode (q : Question) : List UInt8 :=
  encodeName q.name ++ (Bytes.be16 q.qtype ++ Bytes.be16 q.qclass)

def Message.encode (m : Message) : List UInt8 :=
  Bytes.be16 m.id ++ (Bytes.be16 m.flags ++
    (Bytes.be16 (UInt16.ofNat m.questions.length) ++ (Bytes.be16 (UInt16.ofNat m.answers.length) ++
    (Bytes.be16 (UInt16.ofNat m.authorities.length) ++
    (Bytes.be16 (UInt16.ofNat m.additionals.length) ++
    (m.questions.flatMap Question.encode ++ (m.answers.flatMap Record.encode ++
    (m.authorities.flatMap Record.encode ++ m.additionals.flatMap Record.encode))))))))

end Encode

section Decode

-- A length byte of 0 ends the name; one above 63, a compression pointer among them, is refused.
def decodeLabels : Nat → List UInt8 → Option (Name × List UInt8)
  | 0, _ => none
  | _ + 1, [] => none
  | fuel + 1, len :: rest =>
      if len = 0 then some ([], rest)
      else do
        let (label, rest) ← Bytes.takeN len.toNat rest
        if h : 1 ≤ label.length ∧ label.length ≤ 63 then
          let (name, rest) ← decodeLabels fuel rest
          some (⟨label, h⟩ :: name, rest)
        else none

def decodeName (bytes : List UInt8) : Option (Name × List UInt8) := decodeLabels bytes.length bytes

def decodeText : List UInt8 → Option (Text × List UInt8)
  | [] => none
  | len :: rest => do
      let (bytes, rest) ← Bytes.takeN len.toNat rest
      if h : bytes.length ≤ 255 then some (⟨bytes, h⟩, rest) else none

def decodeTexts : Nat → List UInt8 → Option (List Text)
  | _, [] => some []
  | 0, _ => none
  | fuel + 1, bytes => do
      let (text, rest) ← decodeText bytes
      let texts ← decodeTexts fuel rest
      some (text :: texts)

-- Nothing may be left over.
def ended {α : Type} : α × List UInt8 → Option α
  | (a, []) => some a
  | (_, _ :: _) => none

def decodeRData (rtype : UInt16) (bytes : List UInt8) : Option RData :=
  if rtype = 1 then
    match bytes with
    | [o₁, o₂, o₃, o₄] => some (.a o₁ o₂ o₃ o₄)
    | _ => none
  else if rtype = 12 then do
    let target ← (decodeName bytes).bind ended
    some (.ptr target)
  else if rtype = 16 then do
    match ← decodeTexts bytes.length bytes with
    | first :: rest => some (.txt first rest)
    | [] => none
  else if rtype = 33 then do
    let (priority, bytes) ← Bytes.take16 bytes
    let (weight, bytes) ← Bytes.take16 bytes
    let (port, bytes) ← Bytes.take16 bytes
    let target ← (decodeName bytes).bind ended
    some (.srv priority weight port target)
  else none

def decodeRecord (bytes : List UInt8) : Option (Record × List UInt8) := do
  let (name, bytes) ← decodeName bytes
  let (rtype, bytes) ← Bytes.take16 bytes
  let (rclass, bytes) ← Bytes.take16 bytes
  let (ttl, bytes) ← Bytes.take32 bytes
  let (rdlength, bytes) ← Bytes.take16 bytes
  let (rdata, bytes) ← Bytes.takeN rdlength.toNat bytes
  let data ← decodeRData rtype rdata
  some (⟨name, rclass, ttl, data⟩, bytes)

def decodeQuestion (bytes : List UInt8) : Option (Question × List UInt8) := do
  let (name, bytes) ← decodeName bytes
  let (qtype, bytes) ← Bytes.take16 bytes
  let (qclass, bytes) ← Bytes.take16 bytes
  some (⟨name, qtype, qclass⟩, bytes)

def decodeMany {α : Type} (decode : List UInt8 → Option (α × List UInt8)) :
    Nat → List UInt8 → Option (List α × List UInt8)
  | 0, bytes => some ([], bytes)
  | count + 1, bytes => do
      let (a, bytes) ← decode bytes
      let (as, bytes) ← decodeMany decode count bytes
      some (a :: as, bytes)

def decode (bytes : List UInt8) : Option Message := do
  let (id, bytes) ← Bytes.take16 bytes
  let (flags, bytes) ← Bytes.take16 bytes
  let (qdcount, bytes) ← Bytes.take16 bytes
  let (ancount, bytes) ← Bytes.take16 bytes
  let (nscount, bytes) ← Bytes.take16 bytes
  let (arcount, bytes) ← Bytes.take16 bytes
  let (questions, bytes) ← decodeMany decodeQuestion qdcount.toNat bytes
  let (answers, bytes) ← decodeMany decodeRecord ancount.toNat bytes
  let (authorities, bytes) ← decodeMany decodeRecord nscount.toNat bytes
  let (additionals, bytes) ← decodeMany decodeRecord arcount.toNat bytes
  ended (⟨id, flags, questions, answers, authorities, additionals⟩, bytes)

end Decode

section RoundTrip

theorem length_encodeName_gt (name : Name) : name.length < (encodeName name).length := by
  induction name with
  | nil => simp [encodeName]
  | cons label name ih =>
      simp only [encodeName, List.flatMap_cons, encodeString, List.length_append, List.length_cons,
        List.length_nil] at ih ⊢
      omega

theorem ofNat_length_toNat (bytes : List UInt8) (h : bytes.length ≤ 255) :
    (UInt8.ofNat bytes.length).toNat = bytes.length := by
  simp only [UInt8.toNat_ofNat']
  omega

theorem decodeLabels_encodeName (name : Name) (fuel : Nat) (hfuel : name.length < fuel)
    (rest : List UInt8) : decodeLabels fuel (encodeName name ++ rest) = some (name, rest) := by
  induction name generalizing fuel with
  | nil =>
      obtain ⟨fuel, rfl⟩ := Nat.exists_eq_succ_of_ne_zero (by omega : fuel ≠ 0)
      rfl
  | cons label name ih =>
      obtain ⟨fuel, rfl⟩ := Nat.exists_eq_succ_of_ne_zero (by omega : fuel ≠ 0)
      obtain ⟨bytes, hmin, hmax⟩ := label
      have hlen := ofNat_length_toNat bytes (by omega)
      have hne : UInt8.ofNat bytes.length ≠ 0 := by
        intro h0
        rw [h0] at hlen
        have : (0 : UInt8).toNat = 0 := rfl
        omega
      have happ : encodeName (⟨bytes, hmin, hmax⟩ :: name) ++ rest =
          UInt8.ofNat bytes.length :: (bytes ++ (encodeName name ++ rest)) := by
        simp [encodeName, encodeString]
      rw [happ, decodeLabels, if_neg hne, hlen, Bytes.takeN_append]
      simp only [Option.bind_eq_bind, Option.bind_some, dif_pos (And.intro hmin hmax)]
      rw [ih fuel (by simpa using hfuel)]
      rfl

theorem decodeName_encodeName (name : Name) (rest : List UInt8) :
    decodeName (encodeName name ++ rest) = some (name, rest) := by
  apply decodeLabels_encodeName
  have := length_encodeName_gt name
  rw [List.length_append]
  omega

theorem decodeText_encode (text : Text) (rest : List UInt8) :
    decodeText (encodeString text.1 ++ rest) = some (text, rest) := by
  obtain ⟨bytes, h⟩ := text
  simp only [encodeString, List.cons_append, decodeText, ofNat_length_toNat bytes h,
    Bytes.takeN_append, Option.bind_eq_bind, Option.bind_some, dif_pos h]

theorem decodeTexts_encode (texts : List Text) (fuel : Nat) (hfuel : texts.length ≤ fuel) :
    decodeTexts fuel (texts.flatMap fun text => encodeString text.1) = some texts := by
  induction texts generalizing fuel with
  | nil => cases fuel <;> rfl
  | cons text texts ih =>
      obtain ⟨fuel, rfl⟩ := Nat.exists_eq_succ_of_ne_zero
        (by simp only [List.length_cons] at hfuel; omega : fuel ≠ 0)
      have h := decodeText_encode text (texts.flatMap fun text => encodeString text.1)
      rw [List.flatMap_cons]
      -- the string begins with its length byte, so there is something to read
      have hcons : encodeString text.1 ++ (texts.flatMap fun text => encodeString text.1) =
          UInt8.ofNat text.1.length :: (text.1 ++ texts.flatMap fun text => encodeString text.1) := rfl
      rw [hcons] at h ⊢
      rw [decodeTexts, h]
      · simp only [Option.bind_eq_bind, Option.bind_some]
        rw [ih fuel (by simpa using hfuel)]
        rfl
      · simp

theorem length_texts_le (texts : List Text) :
    texts.length ≤ (texts.flatMap fun text => encodeString text.1).length := by
  induction texts with
  | nil => simp
  | cons text texts ih =>
      have htext : 1 ≤ (encodeString text.1).length := by simp [encodeString]
      simp only [List.flatMap_cons, List.length_append, List.length_cons]
      omega

theorem decodeRData_encode (data : RData) : decodeRData data.rtype data.encode = some data := by
  cases data with
  | a o₁ o₂ o₃ o₄ => rfl
  | ptr target =>
      have h := decodeName_encodeName target []
      rw [List.append_nil] at h
      simp [decodeRData, RData.rtype, RData.encode, h, ended]
  | txt first rest =>
      have h := decodeTexts_encode (first :: rest) _ (length_texts_le (first :: rest))
      simp only [decodeRData, RData.rtype, RData.encode, h]
      rfl
  | srv priority weight port target =>
      have h := decodeName_encodeName target []
      rw [List.append_nil] at h
      simp [decodeRData, RData.rtype, RData.encode, h, ended]

-- The length field is 16 bits wide: longer data cannot be written.
def Record.Fits (r : Record) : Prop := r.data.encode.length < 65536

theorem decodeRecord_encode (r : Record) (h : r.Fits) (rest : List UInt8) :
    decodeRecord (r.encode ++ rest) = some (r, rest) := by
  have hlen : (UInt16.ofNat r.data.encode.length).toNat = r.data.encode.length := by
    rw [UInt16.toNat_ofNat']
    exact Nat.mod_eq_of_lt h
  simp only [decodeRecord, Record.encode, List.append_assoc, decodeName_encodeName, Bytes.take16_be16,
    Bytes.take32_be32, Option.bind_eq_bind, Option.bind_some, hlen, Bytes.takeN_append, decodeRData_encode]

theorem decodeQuestion_encode (q : Question) (rest : List UInt8) :
    decodeQuestion (q.encode ++ rest) = some (q, rest) := by
  simp only [decodeQuestion, Question.encode, List.append_assoc, decodeName_encodeName,
    Bytes.take16_be16, Option.bind_eq_bind, Option.bind_some]

theorem decodeMany_encode {α : Type} {decode : List UInt8 → Option (α × List UInt8)}
    {encode : α → List UInt8} (as : List α)
    (h : ∀ a ∈ as, ∀ rest, decode (encode a ++ rest) = some (a, rest)) (rest : List UInt8) :
    decodeMany decode as.length (as.flatMap encode ++ rest) = some (as, rest) := by
  induction as with
  | nil => rfl
  | cons a as ih =>
      simp only [List.flatMap_cons, List.append_assoc, List.length_cons, decodeMany,
        h a (by simp), Option.bind_eq_bind, Option.bind_some]
      rw [ih fun b hb => h b (by simp [hb])]
      rfl

structure Message.Fits (m : Message) : Prop where
  questions : m.questions.length < 65536
  answers : m.answers.length < 65536
  authorities : m.authorities.length < 65536
  additionals : m.additionals.length < 65536
  records : ∀ r ∈ m.answers ++ m.authorities ++ m.additionals, r.Fits

private theorem length_flatMap_ge {α : Type} (encode : α → List UInt8) {as : List α} :
    ∀ a ∈ as, (encode a).length ≤ (as.flatMap encode).length := by
  intro a ha
  obtain ⟨before, after, rfl⟩ := List.append_of_mem ha
  simp only [List.flatMap_append, List.flatMap_cons, List.length_append]
  omega

private theorem count_le_flatMap {α : Type} {encode : α → List UInt8} (as : List α)
    (h : ∀ a, 1 ≤ (encode a).length) : as.length ≤ (as.flatMap encode).length := by
  induction as with
  | nil => simp
  | cons a as ih =>
      have := h a
      simp only [List.length_cons, List.flatMap_cons, List.length_append]
      omega

-- A message short enough for its length fields to hold any part of it.
theorem Message.fits_of_length {m : Message} (h : m.encode.length < 65536) : m.Fits := by
  have hq : ∀ q : Question, 1 ≤ q.encode.length := fun q => by
    simp only [Question.encode, List.length_append, Bytes.length_be16]
    omega
  have hr : ∀ r : Record, 1 + r.data.encode.length ≤ r.encode.length := fun r => by
    simp only [Record.encode, List.length_append, Bytes.length_be16]
    omega
  have hr1 : ∀ r : Record, 1 ≤ r.encode.length := fun r => Nat.le_trans (by omega) (hr r)
  simp only [Message.encode, List.length_append] at h
  have hquestions := count_le_flatMap m.questions hq
  have hanswers := count_le_flatMap m.answers hr1
  have hauthorities := count_le_flatMap m.authorities hr1
  have hadditionals := count_le_flatMap m.additionals hr1
  refine ⟨by omega, by omega, by omega, by omega, fun r hmem => ?_⟩
  have hr := hr r
  unfold Record.Fits
  rcases List.mem_append.mp hmem with hmem | hmem
  · rcases List.mem_append.mp hmem with hmem | hmem
    · have := length_flatMap_ge Record.encode r hmem
      omega
    · have := length_flatMap_ge Record.encode r hmem
      omega
  · have := length_flatMap_ge Record.encode r hmem
    omega

theorem decode_encode (m : Message) (h : m.Fits) : decode m.encode = some m := by
  have hcount : ∀ n < 65536, (UInt16.ofNat n).toNat = n := fun n hn => by
    rw [UInt16.toNat_ofNat']
    exact Nat.mod_eq_of_lt hn
  have hq := decodeMany_encode m.questions (fun q _ => decodeQuestion_encode q)
  have hr : ∀ rs : List Record, (∀ r ∈ rs, r ∈ m.answers ++ m.authorities ++ m.additionals) →
      ∀ rest, decodeMany decodeRecord rs.length (rs.flatMap Record.encode ++ rest) = some (rs, rest) :=
    fun rs hrs => decodeMany_encode rs fun r hm => decodeRecord_encode r (h.records r (hrs r hm))
  have hadd := hr m.additionals (fun r hm => by simp [hm]) []
  rw [List.append_nil] at hadd
  simp only [decode, Message.encode, Bytes.take16_be16, Option.bind_eq_bind, Option.bind_some,
    hcount _ h.questions, hcount _ h.answers, hcount _ h.authorities, hcount _ h.additionals, hq,
    hr m.answers (fun r hm => by simp [hm]), hr m.authorities (fun r hm => by simp [hm]), hadd, ended]

end RoundTrip

end Dns
