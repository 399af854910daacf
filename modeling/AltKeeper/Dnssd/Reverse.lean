import AltKeeper.Dnssd.Existence
import AltKeeper.Lib.Bits
import AltKeeper.Start

-- Which clients are told the domain when they ask about the reverse of their own address.
namespace AltKeeper.Dnssd

section Octets

-- The parts before the end of the name, in the order of the address.
def reverse_name (parts : List Str) : Str :=
  ['.'].intercalate parts.reverse ++ ".in-addr.arpa".toList

def decimal (o : UInt8) : Str := (toString o.toNat).toList

theorem parse_decimal (o : UInt8) : (decimal o).parse_u8 = some o := by
  have hall : ∀ n < 256, Str.parse_u8 (toString n).toList = some (UInt8.ofNat n) := by decide +kernel
  rw [decimal, hall o.toNat o.toNat_lt, UInt8.ofNat_toNat]

-- Each part that is read goes in front of those read before it.
theorem read_octets_some {parts : List Str} {os : List UInt8}
    (hparse : parts.map Str.parse_u8 = os.map some) {i : Nat} (hroom : i + parts.length ≤ 4)
    {octets : List UInt8} (hfour : octets.length = 4) :
    read_octets parts i octets =
      some (octets.take (4 - i - parts.length) ++ os.reverse ++ octets.drop (4 - i),
        i + parts.length) := by
  induction parts generalizing os i octets with
  | nil =>
      obtain rfl : os = [] := by simpa using hparse.symm
      simp [read_octets]
  | cons part parts ih =>
      obtain ⟨o, os, rfl⟩ : ∃ o os', os = o :: os' := by
        cases os with
        | nil => simp at hparse
        | cons o os => exact ⟨o, os, rfl⟩
      rw [List.map_cons, List.map_cons, List.cons.injEq] at hparse
      rw [List.length_cons] at hroom
      rw [read_octets, if_neg (by omega), hparse.1]
      simp only
      have hset : octets.set (3 - i) o = octets.take (3 - i) ++ o :: octets.drop (4 - i) := by
        rw [List.set_eq_take_append_cons_drop, if_pos (by omega), show 3 - i + 1 = 4 - i by omega]
      have hfront : (octets.take (3 - i)).length = 3 - i := by
        rw [List.length_take]
        omega
      rw [ih hparse.2 (by omega) (by rw [List.length_set, hfour]), hset,
        show 4 - (i + 1) = 3 - i by omega, List.drop_left' hfront,
        List.take_append_of_le_length (by omega), List.take_take, Nat.min_eq_left (by omega),
        List.reverse_cons, List.length_cons, show 4 - i - (parts.length + 1) = 3 - i - parts.length by omega,
        show i + 1 + parts.length = i + (parts.length + 1) by omega]
      simp

-- Octets that the name leaves out are the last ones, and are zero.
def padded (os : List UInt8) : List UInt8 := os ++ List.replicate (4 - os.length) 0

theorem length_padded {os : List UInt8} (h : os.length ≤ 4) : (padded os).length = 4 := by
  rw [padded, List.length_append, List.length_replicate]
  omega

theorem rotateLeft_padded {os : List UInt8} (hpos : 1 ≤ os.length) (hfour : os.length ≤ 4) :
    (List.replicate (4 - os.length) 0 ++ os).rotateLeft (4 - os.length) = padded os := by
  have hlen : (List.replicate (4 - os.length) (0 : UInt8)).length = 4 - os.length :=
    List.length_replicate
  have htotal : (List.replicate (4 - os.length) (0 : UInt8) ++ os).length = 4 := by
    rw [List.length_append, hlen]
    omega
  have hmod : (4 - os.length) % 4 = 4 - os.length := by omega
  simp only [List.rotateLeft, htotal, hmod]
  rw [if_neg (by omega), List.drop_left' hlen, List.take_left' hlen, padded]

-- The octets of a partial name are brought to the front.
theorem realigned_padded {os : List UInt8} (hpos : 1 ≤ os.length) (hfour : os.length ≤ 4) :
    (if os.length < 4 then (List.replicate (4 - os.length) 0 ++ os).rotateLeft (4 - os.length)
      else List.replicate (4 - os.length) 0 ++ os) = padded os := by
  by_cases hshort : os.length < 4
  · rw [if_pos hshort, rotateLeft_padded hpos hfour]
  · have hzero : 4 - os.length = 0 := by omega
    rw [if_neg hshort, padded, hzero, List.replicate_zero, List.nil_append, List.append_nil]

-- The octets are read from the last to the first, to the end of the four places.
theorem read_octets_name {parts : List Str} {os : List UInt8}
    (hparse : parts.map Str.parse_u8 = os.map some) (hpos : 1 ≤ os.length) (hfour : os.length ≤ 4) :
    read_octets ((['.'].intercalate parts.reverse).splitOn '.') 0 [0, 0, 0, 0] =
      some (List.replicate (4 - os.length) 0 ++ os, os.length) := by
  have hcount : parts.length = os.length := by simpa using congrArg List.length hparse
  have hdots : ∀ part ∈ parts, '.' ∉ part := by
    intro part hpart
    apply parse_u8_no_dot
    have hmem : part.parse_u8 ∈ os.map some := hparse ▸ List.mem_map_of_mem hpart
    obtain ⟨o, -, ho⟩ := List.mem_map.mp hmem
    rw [← ho]
    rfl
  have hsplit : (['.'].intercalate parts.reverse).splitOn '.' = parts.reverse := by
    apply List.splitOn_intercalate
    · exact fun part hpart => hdots part (List.mem_reverse.mp hpart)
    · intro hnil
      have hlen := congrArg List.length hnil
      simp only [List.length_reverse, List.length_nil] at hlen
      omega
  have hbackwards : parts.reverse.map Str.parse_u8 = os.reverse.map some := by
    rw [List.map_reverse, hparse, List.map_reverse]
  have hroom : 0 + parts.reverse.length ≤ 4 := by
    rw [List.length_reverse]
    omega
  have hread := read_octets_some hbackwards hroom (rfl : ([0, 0, 0, 0] : List UInt8).length = 4)
  have hzeros : ([0, 0, 0, 0] : List UInt8) = List.replicate 4 0 := rfl
  have hmissing : min (4 - parts.length) 4 = 4 - os.length := by omega
  rw [List.length_reverse, List.reverse_reverse, Nat.zero_add, hzeros, List.take_replicate,
    Nat.sub_zero, hmissing, hcount, List.drop_replicate, Nat.sub_self, List.replicate_zero,
    List.append_nil] at hread
  rw [hsplit, hzeros, hread]

end Octets

section Masks

theorem u32_from_concat (os : List UInt8) (o : UInt8) :
    u32_from (os ++ [o]) = (u32_from os <<< 8) ||| o.toUInt32 := by
  rw [u32_from, List.foldl_append]
  rfl

theorem toNat_u32_from {os : List UInt8} (h : os.length ≤ 4) :
    (u32_from os).toNat = Bits.toNat (Bits.ofBytes os) := by
  induction os using List.reverseRecOn with
  | nil => rfl
  | append_singleton os o ih =>
      rw [List.length_append, List.length_singleton] at h
      have hbits : Bits.ofBytes (os ++ [o]) = Bits.ofBytes os ++ Bits.ofNat 8 o.toNat := by
        simp [Bits.ofBytes]
      have hlt := Bits.toNat_lt (Bits.ofBytes os)
      have hpow : 2 ^ (Bits.ofBytes os).length ≤ 2 ^ 24 := by
        apply Nat.pow_le_pow_right (by decide)
        rw [Bits.length_ofBytes]
        omega
      have ho := o.toNat_lt
      rw [u32_from_concat, hbits, Bits.toNat_append, Bits.length_ofNat, Bits.toNat_ofNat,
        UInt32.toNat_or, UInt32.toNat_shiftLeft, ih (by omega), UInt8.toNat_toUInt32,
        Nat.mod_eq_of_lt ho]
      have hshift : (8 : UInt32).toNat % 32 = 8 := rfl
      rw [hshift, Nat.shiftLeft_eq, Nat.mod_eq_of_lt (by omega), Nat.mul_comm,
        ← Nat.two_pow_add_eq_or_of_lt ho]

-- What the mask leaves of a word is its bits from `shift` up.
theorem testBit_and_mask (a : UInt32) {shift : UInt32} (hshift : shift.toNat < 32) (j : Nat) :
    (a &&& (0xFFFFFFFF <<< shift)).toNat.testBit j =
      (decide (shift.toNat ≤ j) && a.toNat.testBit j) := by
  have hones : (0xFFFFFFFF : UInt32).toNat = 2 ^ 32 - 1 := rfl
  rw [UInt32.toNat_and, UInt32.toNat_shiftLeft, Nat.mod_eq_of_lt hshift, hones, Nat.testBit_and,
    Nat.testBit_mod_two_pow, Nat.testBit_shiftLeft, Nat.testBit_two_pow_sub_one]
  by_cases hj : j < 32
  · have hsub : j - shift.toNat < 32 := by omega
    simp [hj, hsub, Bool.and_comm]
  · have hhigh : a.toNat.testBit j = false := by
      apply Nat.testBit_lt_two_pow
      exact Nat.lt_of_lt_of_le a.toNat_lt (Nat.pow_le_pow_right (by decide) (by omega))
    simp [hhigh]

theorem and_mask_eq_iff (a b : UInt32) {shift : UInt32} (hshift : shift.toNat < 32) :
    a &&& (0xFFFFFFFF <<< shift) = b &&& (0xFFFFFFFF <<< shift) ↔
      a.toNat / 2 ^ shift.toNat = b.toNat / 2 ^ shift.toNat := by
  constructor
  · intro h
    apply Nat.eq_of_testBit_eq
    intro j
    have hj := testBit_and_mask a hshift (shift.toNat + j)
    rw [h, testBit_and_mask b hshift] at hj
    simpa [Nat.testBit_div_two_pow, Nat.add_comm] using hj.symm
  · intro h
    rw [← UInt32.toNat_inj]
    apply Nat.eq_of_testBit_eq
    intro j
    rw [testBit_and_mask a hshift, testBit_and_mask b hshift]
    by_cases hj : shift.toNat ≤ j
    · have hbit := congrArg (fun n => n.testBit (j - shift.toNat)) h
      simp only [Nat.testBit_div_two_pow, Nat.sub_add_cancel hj] at hbit
      rw [hbit]
    · simp [hj]

-- The addresses in the network of the clients, by their first bits.
def agree (bits : UInt8) (a b : List UInt8) : Bool :=
  (Bits.ofBytes a).take bits.toNat == (Bits.ofBytes b).take bits.toNat

theorem masked_agree {bits : UInt8} (hpos : bits ≠ 0) (hbits : bits ≤ 32) {a b : List UInt8}
    (ha : a.length = 4) (hb : b.length = 4) :
    (let maschera : UInt32 := 0xFFFFFFFF <<< (32 - bits.toUInt32)
     u32_from a &&& maschera == u32_from b &&& maschera) = agree bits a b := by
  have hle : bits.toNat ≤ 32 := UInt8.le_iff_toNat_le.mp hbits
  have hne : bits.toNat ≠ 0 := fun h => hpos (UInt8.toNat_inj.mp h)
  have hshift : (32 - bits.toUInt32).toNat = 32 - bits.toNat := by
    have h32 : (32 : UInt32).toNat = 32 := rfl
    rw [UInt32.toNat_sub_of_le, UInt8.toNat_toUInt32, h32]
    rw [UInt32.le_iff_toNat_le, UInt8.toNat_toUInt32, h32]
    exact hle
  have hlen : (Bits.ofBytes a).length = 32 := by rw [Bits.length_ofBytes, ha]
  have hlen' : (Bits.ofBytes b).length = 32 := by rw [Bits.length_ofBytes, hb]
  rw [Bool.eq_iff_iff, agree, beq_iff_eq, beq_iff_eq, and_mask_eq_iff _ _ (by omega), hshift,
    toNat_u32_from (by omega), toNat_u32_from (by omega),
    Bits.take_eq_take_iff (by rw [hlen, hlen']), hlen]

end Masks

section Discovery

theorem suffix_in_addr (rev : Str) :
    (rev ++ ".in-addr.arpa".toList).dropSuffix? ".in-addr.arpa".toList = some rev := by
  rw [List.dropSuffix?_eq_some_iff]
  exact ⟨_, rfl, by simp⟩

theorem covers_reverse_name {z : Zone} (hbits : z.clients.2 ≤ 32) {parts : List Str}
    {os : List UInt8} (hparse : parts.map Str.parse_u8 = os.map some) (hpos : 1 ≤ os.length)
    (hfour : os.length ≤ 4) :
    z.covers_reverse (reverse_name parts) = agree z.clients.2 (padded os) z.clients.1.octets := by
  have hread := read_octets_name hparse hpos hfour
  unfold Zone.covers_reverse reverse_name
  simp only [suffix_in_addr, hread, if_neg (show os.length ≠ 0 by omega), realigned_padded hpos hfour]
  by_cases hnone : z.clients.2 = 0
  · rw [if_pos hnone, hnone]
    rfl
  · have hsmall : ¬ 32 < z.clients.2 := UInt8.not_lt.mpr hbits
    rw [if_neg hnone, if_neg hsmall]
    exact masked_agree hnone hbits (length_padded hfour) z.clients.1.four

theorem read_octets_length {parts : List Str} {i : Nat} {octets : List UInt8}
    {result : List UInt8 × Nat} (h : read_octets parts i octets = some result) :
    parts = [] ∨ i + parts.length ≤ 4 := by
  induction parts generalizing i octets with
  | nil => exact .inl rfl
  | cons part parts ih =>
      unfold read_octets at h
      split_ifs at h with hi
      split at h
      · cases h
      · right
        rcases ih h with hnil | hlen
        · rw [hnil, List.length_singleton]
          omega
        · rw [List.length_cons]
          omega

-- One to four numbers, each as `u8` reads it, and the end of a reverse name.
def IsReverse (rest : Str) : Prop :=
  ∃ parts : List Str, 1 ≤ parts.length ∧ parts.length ≤ 4 ∧
    (∀ part ∈ parts, (Str.parse_u8 part).isSome) ∧
    rest = ['.'].intercalate parts ++ ".in-addr.arpa".toList

theorem isReverse_of_covers {z : Zone} {rest : Str} (h : z.covers_reverse rest = true) :
    IsReverse rest := by
  obtain ⟨rev, rfl, hparse⟩ := Zone.covers_reverse_spec h
  unfold Zone.covers_reverse at h
  simp only [suffix_in_addr] at h
  split at h
  · cases h
  · rename_i octets quanti hread
    have hne := List.splitOn_ne_nil '.' rev
    have hlen := (read_octets_length hread).resolve_left hne
    refine ⟨rev.splitOn '.', List.length_pos_of_ne_nil hne, by omega, hparse, ?_⟩
    rw [List.intercalate_splitOn]

-- A request for browsing domains is answered for the domain and for the reverse names, only.
theorem answer_browsing {z : Zone} (hbrowse : ∃ rest, z.browse = '_' :: rest)
    (hinst : ∃ rest, z.inst = 'a' :: rest) (hhost : ∃ rest, z.host = 'a' :: rest) {p : String}
    (hp : p ∈ ["b", "db", "lb"]) (rest : Str) (qtype : UInt16) :
    z.answer (p.toList ++ "._dns-sd._udp.".toList ++ rest) qtype =
      if rest == z.domain || z.covers_reverse rest then
        some (if qtype == TYPE_PTR || qtype == TYPE_ANY then
          [.Ptr (p.toList ++ "._dns-sd._udp.".toList ++ rest) z.domain] else [])
      else none := by
  have hfind := browsing_rest hp rest
  have hhead : ∀ c tail, c = '_' ∨ c = 'a' →
      p.toList ++ "._dns-sd._udp.".toList ++ rest ≠ c :: tail := by
    intro c tail hc
    simp only [List.mem_cons, List.not_mem_nil, or_false] at hp
    rcases hp with rfl | rfl | rfl <;> rcases hc with rfl | rfl <;> simp
  generalize p.toList ++ "._dns-sd._udp.".toList ++ rest = name at hfind hhead ⊢
  obtain ⟨b, hb⟩ := hbrowse
  obtain ⟨i, hi⟩ := hinst
  obtain ⟨o, ho⟩ := hhost
  unfold Zone.answer
  simp only [hfind, Option.any_some, hb, hi, ho, if_neg (hhead '_' b (.inl rfl)),
    if_neg (hhead 'a' i (.inr rfl)), if_neg (hhead 'a' o (.inr rfl))]

-- The domain is told to the clients of the network, and nobody else is answered.
theorem reverse_discovery {opt : Str → Option Str} {altserver_port port : UInt16}
    {stdout : Option Octets} {id : Except Str Str} {z : Zone}
    (h : start_dnssd opt altserver_port stdout id = .ok (some (z, port)))
    (hdomain : ¬ ".in-addr.arpa".toList <:+ z.domain) {p : String} (hp : p ∈ ["b", "db", "lb"]) :
    (∀ os : List UInt8, 1 ≤ os.length → os.length ≤ 4 →
      z.answer (p.toList ++ "._dns-sd._udp.".toList ++ reverse_name (os.map decimal)) TYPE_PTR =
        if agree z.clients.2 (padded os) z.clients.1.octets then
          some [.Ptr (p.toList ++ "._dns-sd._udp.".toList ++ reverse_name (os.map decimal)) z.domain]
        else none) ∧
      ∀ rest qtype, rest ≠ z.domain → ¬ IsReverse rest →
        z.answer (p.toList ++ "._dns-sd._udp.".toList ++ rest) qtype = none := by
  obtain ⟨domain, server_id, address, clients, hbits, hnew⟩ := start_dnssd_zone h
  obtain ⟨short, -, hz⟩ := Zone.new_some hnew
  have hclients : z.clients.2 ≤ 32 := by
    rw [hz]
    exact hbits
  have hbrowse : ∃ rest, z.browse = '_' :: rest := by
    rw [hz]
    exact ⟨_, rfl⟩
  have hinst : ∃ rest, z.inst = 'a' :: rest := by
    rw [hz]
    exact ⟨_, rfl⟩
  have hhost : ∃ rest, z.host = 'a' :: rest := by
    rw [hz]
    exact ⟨_, rfl⟩
  constructor
  · intro os hpos hfour
    have hparse : (os.map decimal).map Str.parse_u8 = os.map some := by
      rw [List.map_map]
      exact List.map_congr_left fun o _ => parse_decimal o
    have hother : (reverse_name (os.map decimal) == z.domain) = false := by
      rw [beq_eq_false_iff_ne]
      intro heq
      exact hdomain (heq ▸ List.suffix_append _ _)
    rw [answer_browsing hbrowse hinst hhost hp, covers_reverse_name hclients hparse hpos hfour, hother]
    rfl
  · intro rest qtype hne hnot
    have hcovers : z.covers_reverse rest = false :=
      Bool.eq_false_iff.mpr fun hcovers => hnot (isReverse_of_covers hcovers)
    rw [answer_browsing hbrowse hinst hhost hp, hcovers, beq_eq_false_iff_ne.mpr hne]
    rfl

-- Clients of a network that does not end with an octet.
def opzioni (name : Str) : Option Str :=
  if name = "--dns-domain".toList then some "casa.internal".toList
  else if name = "--dns-address".toList then some "10.7.0.1".toList
  else if name = "--dns-clients".toList then some "10.7.0.0/22".toList
  else none

theorem reverse_discovery_casa : ∃ z port,
    start_dnssd opzioni 49500 none (.ok zona.server_id) = .ok (some (z, port)) ∧
      z.answer "lb._dns-sd._udp.9.3.7.10.in-addr.arpa".toList TYPE_PTR =
        some [.Ptr "lb._dns-sd._udp.9.3.7.10.in-addr.arpa".toList z.domain] ∧
      z.answer "lb._dns-sd._udp.4.7.10.in-addr.arpa".toList TYPE_PTR = none := by
  have hstart : start_dnssd opzioni 49500 none (.ok zona.server_id) = .ok (some ({ zona with
      inst := "altkeeper-altkeeper._altserver._tcp.casa.internal".toList
      address := ⟨[10, 7, 0, 1], rfl⟩
      clients := (⟨[10, 7, 0, 0], rfl⟩, 22) }, 5533)) := rfl
  have hdomain : ¬ ".in-addr.arpa".toList <:+ zona.domain := by decide
  have hanswers := (reverse_discovery hstart hdomain (p := "lb") (by decide)).1
  have hin : "lb".toList ++ "._dns-sd._udp.".toList ++ reverse_name ([10, 7, 3, 9].map decimal) =
      "lb._dns-sd._udp.9.3.7.10.in-addr.arpa".toList := by decide
  have hout : "lb".toList ++ "._dns-sd._udp.".toList ++ reverse_name ([10, 7, 4].map decimal) =
      "lb._dns-sd._udp.4.7.10.in-addr.arpa".toList := by decide
  refine ⟨_, _, hstart, ?_, ?_⟩
  · rw [← hin, hanswers [10, 7, 3, 9] (by decide) (by decide)]
    exact if_pos (by decide)
  · rw [← hout, hanswers [10, 7, 4] (by decide) (by decide)]
    exact if_neg (by decide)

end Discovery

end AltKeeper.Dnssd
