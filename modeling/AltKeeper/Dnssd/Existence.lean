import AltKeeper.Dnssd.Question

-- What a reply says of the existence of a name, and of the names below it.
namespace AltKeeper.Dnssd

section Names

-- `name`, after a dot, is what the longer name ends with.
def Below (name longer : Str) : Prop := '.' :: name <:+ longer

-- The names the zone has an answer for, whatever the type that is asked.
inductive Zone.Publishes (z : Zone) : Str → Prop where
  | browsing {p : String} {rest : Str} (hp : p ∈ ["b", "db", "lb"])
      (hrest : rest = z.domain ∨ z.covers_reverse rest = true) :
      z.Publishes (p.toList ++ "._dns-sd._udp.".toList ++ rest)
  | browse : z.Publishes z.browse
  | inst : z.Publishes z.inst
  | host : z.Publishes z.host

-- The three prefixes begin with different letters, so no other one is found first.
theorem browsing_rest {p : String} (hp : p ∈ ["b", "db", "lb"]) (rest : Str) :
    (["b", "db", "lb"].findSome? fun p' =>
      (p.toList ++ "._dns-sd._udp.".toList ++ rest).dropPrefix?
        (p'.toList ++ "._dns-sd._udp.".toList)) = some rest := by
  simp only [List.mem_cons, List.not_mem_nil, or_false] at hp
  rcases hp with rfl | rfl | rfl <;> simp [List.findSome?, List.dropPrefix?]

theorem Zone.answer_isSome {z : Zone} {name : Str} {qtype : UInt16} :
    (z.answer name qtype).isSome = true ↔ z.Publishes name := by
  constructor
  · intro h
    obtain ⟨records, hrecords⟩ := Option.isSome_iff_exists.mp h
    rcases z.answer_cases hrecords with ⟨p, hp, rest, rfl, hrest, -⟩ | ⟨rfl, -⟩ | ⟨rfl, -⟩ | ⟨rfl, -⟩
    · exact .browsing hp hrest
    · exact .browse
    · exact .inst
    · exact .host
  · intro h
    unfold Zone.answer
    by_cases hbrowsing : (["b", "db", "lb"].findSome? fun p =>
        name.dropPrefix? (p.toList ++ "._dns-sd._udp.".toList)).any
          fun rest => rest == z.domain || z.covers_reverse rest
    · simp only [if_pos hbrowsing, Option.isSome_some]
    · simp only [if_neg hbrowsing]
      cases h with
      | browsing hp hrest =>
          rw [browsing_rest hp] at hbrowsing
          exact absurd (by simpa using hrest) hbrowsing
      | browse => simp
      | inst =>
          by_cases hb : z.inst = z.browse
          · rw [if_pos hb]
            rfl
          · rw [if_neg hb, if_pos rfl]
            rfl
      | host =>
          by_cases hb : z.host = z.browse
          · rw [if_pos hb]
            rfl
          · by_cases hi : z.host = z.inst
            · rw [if_neg hb, if_pos hi]
              rfl
            · rw [if_neg hb, if_neg hi, if_pos rfl]
              rfl

-- Asked for a type it does not hold, a name that is published has no records.
theorem Zone.answer_other {z : Zone} {name : Str} (h : z.Publishes name) :
    z.answer name 0 = some [] := by
  obtain ⟨records, hrecords⟩ := Option.isSome_iff_exists.mp (Zone.answer_isSome.mpr h)
  have ha : ((0 : UInt16) == TYPE_A) = false := by decide
  have hptr : ((0 : UInt16) == TYPE_PTR) = false := by decide
  have htxt : ((0 : UInt16) == TYPE_TXT) = false := by decide
  have hsrv : ((0 : UInt16) == TYPE_SRV) = false := by decide
  have hany : ((0 : UInt16) == TYPE_ANY) = false := by decide
  rw [hrecords]
  unfold Zone.answer at hrecords
  simp only [ha, hptr, htxt, hsrv, hany, Bool.or_self, Bool.false_eq_true, if_false,
    List.nil_append] at hrecords
  split_ifs at hrecords <;> exact hrecords.symm

end Names

section Replies

def rcode (msg : Octets) : UInt16 := u16_at msg 2 &&& 0xF

def truncated (msg : Octets) : Bool := u16_at msg 2 &&& FLAG_TRUNCATED != 0

theorem handle_rcode {z : Zone} {query reply : Octets} {q : Query} (hq : parse_query query = some q)
    (h : handle z query = some reply) :
    if (full_reply z q).length ≤ MAX_REPLY then
      truncated reply = false ∧ rcode reply = rcode_of (z.answer q.name q.qtype)
    else truncated reply = true ∧ rcode reply = RCODE_OK := by
  obtain ⟨q', flags, records, hq', rfl, -, hsent⟩ := handle_encode h
  obtain rfl : q = q' := Option.some.inj (hq.symm.trans hq')
  have hflags : (replyMessage q flags records).flags = flags := rfl
  rw [truncated, rcode, u16_at_flags, hflags]
  by_cases hfull : (full_reply z q).length ≤ MAX_REPLY
  · rw [if_pos hfull] at hsent ⊢
    obtain ⟨rfl, -⟩ := hsent
    have hcases := rcode_of_cases (z.answer q.name q.qtype)
    obtain ⟨-, -, -, -, hcode⟩ := replyFlags_spec q.recursion_desired hcases (.inl rfl)
    exact ⟨(replyFlags_truncated _ hcases).1, hcode⟩
  · rw [if_neg hfull] at hsent ⊢
    obtain ⟨rfl, -⟩ := hsent
    obtain ⟨-, -, -, -, hcode⟩ := replyFlags_spec q.recursion_desired (.inl rfl) (.inr rfl)
    exact ⟨(replyFlags_truncated _ (.inl rfl)).2, hcode⟩

-- A question about the name can arrive, and comes back in a reply that needs no cut.
def Answerable (name : Str) : Prop :=
  ∃ query q, parse_query query = some q ∧ q.name = name ∧
    (build_reply q RCODE_OK []).length ≤ MAX_REPLY

-- Neither the name nor any name below it exists, for what the replies say that are not cut.
def Zone.Denies (z : Zone) (name : Str) : Prop :=
  ∀ query q reply, parse_query query = some q → q.name = name ∨ Below name q.name →
    handle z query = some reply → truncated reply = false → rcode reply = RCODE_NXDOMAIN

theorem length_bare (q : Query) :
    (build_reply q RCODE_OK []).length = (Dns.encodeName (wireName q.name)).length + 16 := by
  rw [build_reply_eq, length_replyMessage]
  rfl

theorem length_full_ge (z : Zone) (q : Query) :
    (build_reply q RCODE_OK []).length ≤ (full_reply z q).length := by
  rw [length_bare, full_reply, build_reply_eq, length_replyMessage]
  omega

-- The same question, for a type that no name holds.
theorem parse_query_other {query : Octets} {q : Query} (h : parse_query query = some q) :
    ∃ query', parse_query query' = some { q with qtype := 0 } := by
  obtain ⟨id, flags, question, hasks, rfl⟩ := parse_query_asks h
  let other : Dns.Question := { question with qtype := 0 }
  have hother : Asks (Bytes.be16 id ++ (Bytes.be16 flags ++ (Bytes.be16 1 ++
      (List.replicate 6 0 ++ (other.encode ++ []))))) id flags other :=
    { hasks with bytes := ⟨_, _, rfl, rfl⟩ }
  exact ⟨_, hother.parse_query⟩

-- A name that has a published one below it exists, and the reply that says otherwise is wrong.
theorem nxdomain_sound_iff (z : Zone) {query reply : Octets} {q : Query}
    (hq : parse_query query = some q) (h : handle z query = some reply)
    (hnx : rcode reply = RCODE_NXDOMAIN) :
    z.Denies q.name ↔
      ∀ longer, Below q.name longer → z.Publishes longer → ¬ Answerable longer := by
  have hok : RCODE_OK ≠ RCODE_NXDOMAIN := by decide
  constructor
  · rintro hdenies longer hbelow hpublishes ⟨query', q', hq', rfl, hroom⟩
    obtain ⟨query'', hq''⟩ := parse_query_other hq'
    have hanswer : z.answer q'.name 0 = some [] := Zone.answer_other hpublishes
    obtain ⟨reply', hreply'⟩ : ∃ reply', handle z query'' = some reply' :=
      ⟨_, handle_of_query hq''⟩
    have hsent := handle_rcode hq'' hreply'
    have hfull : full_reply z { q' with qtype := 0 } =
        build_reply { q' with qtype := 0 } RCODE_OK [] := by
      simp only [full_reply, hanswer, rcode_of, Option.isNone_some, Option.getD_some,
        Bool.false_eq_true, if_false]
    rw [length_bare] at hroom
    rw [hfull, length_bare, if_pos hroom, hanswer] at hsent
    have hcode := hdenies query'' _ reply' hq'' (.inr hbelow) hreply' hsent.1
    exact hok (hsent.2.symm.trans hcode)
  · intro hnone query' q' reply' hq' hname hreply' htc
    have hsent := handle_rcode hq' hreply'
    by_cases hfull : (full_reply z q').length ≤ MAX_REPLY
    · rw [if_pos hfull] at hsent
      rw [hsent.2]
      -- a name that is answered is published: it is not `q.name`, nor below it
      by_contra hcode
      have hsome : (z.answer q'.name q'.qtype).isSome = true := by
        cases hanswer : z.answer q'.name q'.qtype with
        | none => simp [hanswer, rcode_of] at hcode
        | some records => rfl
      have hpublishes := Zone.answer_isSome.mp hsome
      rcases hname with heq | hbelow
      · have hquery := handle_rcode hq h
        have hthis : (z.answer q.name q.qtype).isSome = true := by
          rw [Zone.answer_isSome, ← heq]
          exact hpublishes
        have hcode' : rcode_of (z.answer q.name q.qtype) = RCODE_OK := by
          rw [rcode_of, ← Option.not_isSome, hthis]
          rfl
        rw [hnx, hcode'] at hquery
        split_ifs at hquery <;> exact hok hquery.2.symm
      · exact hnone q'.name hbelow hpublishes
          ⟨query', q', hq', rfl, Nat.le_trans (length_full_ge z q') hfull⟩
    · rw [if_neg hfull, htc] at hsent
      exact absurd hsent.1 (by decide)

-- The domain of the zone is said not to exist, and the service stands below it.
theorem nxdomain_not_sound_zona :
    ¬ ∀ (domain inst id : Str) (port : UInt16) (address : Ipv4Addr) (clients : Ipv4Addr × UInt8)
      (z : Zone), Zone.new domain inst id port address clients = some z →
      ∀ query reply q, parse_query query = some q → handle z query = some reply →
        rcode reply = RCODE_NXDOMAIN → z.Denies q.name := by
  intro hall
  let above := domanda zona.domain TYPE_A
  let below := domanda zona.browse TYPE_PTR
  have habove : ((parse_query above).map Query.name, (handle zona above).map rcode) =
      (some zona.domain, some RCODE_NXDOMAIN) := by decide +kernel
  have hbelow : ((parse_query below).map Query.name,
      (handle zona below).map fun reply => (truncated reply, rcode reply)) =
      (some zona.browse, some (false, RCODE_OK)) := by decide +kernel
  simp only [Prod.mk.injEq, Option.map_eq_some_iff] at habove hbelow
  obtain ⟨⟨q, hq, hname⟩, reply, hreply, hnx⟩ := habove
  obtain ⟨⟨q', hq', hname'⟩, reply', hreply', htc, hok⟩ := hbelow
  have hsuffix : Below q.name q'.name := by
    rw [hname, hname']
    exact ⟨"_altserver._tcp".toList, by decide⟩
  have hdenied := hall _ _ _ _ _ _ zona zona_new above reply q hq hreply hnx below q' reply' hq'
    (.inr hsuffix) hreply' htc
  rw [hok] at hdenied
  exact absurd hdenied (by decide)

-- The service answers below the domain, so the domain is not denied.
theorem nxdomain_sound_iff_zona : ∃ query reply q,
    parse_query query = some q ∧ handle zona query = some reply ∧ rcode reply = RCODE_NXDOMAIN ∧
      (zona.Denies q.name ↔
        ∀ longer, Below q.name longer → zona.Publishes longer → ¬ Answerable longer) ∧
      ¬ zona.Denies q.name := by
  let above := domanda zona.domain TYPE_A
  let below := domanda zona.browse TYPE_PTR
  have habove : ((parse_query above).map Query.name, (handle zona above).map rcode) =
      (some zona.domain, some RCODE_NXDOMAIN) := by decide +kernel
  have hbelow : (parse_query below).map (fun q =>
      (q.name, decide ((build_reply q RCODE_OK []).length ≤ MAX_REPLY))) = some (zona.browse, true) := by
    decide +kernel
  simp only [Prod.mk.injEq, Option.map_eq_some_iff] at habove hbelow
  obtain ⟨⟨q, hq, hname⟩, reply, hreply, hnx⟩ := habove
  obtain ⟨q', hq', hname', hroom⟩ := hbelow
  have hiff := nxdomain_sound_iff zona hq hreply hnx
  refine ⟨above, reply, q, hq, hreply, hnx, hiff, fun hdenies => ?_⟩
  have hsuffix : Below q.name zona.browse := by
    rw [hname]
    exact ⟨"_altserver._tcp".toList, by decide⟩
  exact hiff.mp hdenies zona.browse hsuffix .browse ⟨below, q', hq', hname', of_decide_eq_true hroom⟩

end Replies

end AltKeeper.Dnssd
