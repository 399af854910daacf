import AltKeeper.Guard
import AltKeeper.Lib.Split

-- Which `Host` a server without a PIN answers to.
namespace AltKeeper.Web

section Names

-- The digits of a port.
def IsPort (port : Str) : Prop := port.all Char.isDigit = true ∧ (port.parse_unsigned 65535).isSome = true

instance (port : Str) : Decidable (IsPort port) := inferInstanceAs (Decidable (_ ∧ _))

-- One of the names of this computer, and perhaps a port.
def Exact (host : Str) : Prop :=
  ∃ name ∈ ["localhost".toList, "127.0.0.1".toList, "[::1]".toList],
    host = name ∨ ∃ port, host = name ++ ':' :: port ∧ IsPort port

-- A name with a port that is none.
def BadPort (host : Str) : Prop :=
  ∃ name ∈ ["localhost".toList, "127.0.0.1".toList], ∃ port, host = name ++ ':' :: port ∧ ¬ IsPort port

-- In brackets a name that is no IPv6 address, or no closing bracket, or more than a port after it.
def BadBrackets (host : Str) : Prop :=
  (∃ name ∈ ["localhost".toList, "127.0.0.1".toList, "::1".toList], host = '[' :: name) ∨
    (∃ name ∈ ["localhost".toList, "127.0.0.1".toList], ∃ rest, host = '[' :: name ++ ']' :: rest) ∨
    ∃ rest, host = "[::1]".toList ++ rest ∧ rest ≠ [] ∧ ∀ port, rest = ':' :: port → ¬ IsPort port

def Loose (host : Str) : Prop := BadPort host ∨ BadBrackets host

theorem authority_plain {name host : Str} (hname : name ∈ ["localhost".toList, "127.0.0.1".toList])
    (h : host = name ∨ ∃ port, host = name ++ ':' :: port) :
    authority_name host ∈ ["localhost".toList, "127.0.0.1".toList, "::1".toList] := by
  have hhead : authority_name host = (host.splitOn ':').headD [] ∧ ':' ∉ name := by
    simp only [List.mem_cons, List.not_mem_nil, or_false] at hname
    rcases hname with rfl | rfl <;> rcases h with rfl | ⟨port, rfl⟩ <;> exact ⟨rfl, by decide⟩
  rw [hhead.1, Split.headD_iff.mpr ⟨hhead.2, h⟩]
  exact List.mem_append_left ["::1".toList] hname

theorem authority_brackets (name : Str) {rest : Str}
    (hname : name ∈ ["localhost".toList, "127.0.0.1".toList, "::1".toList])
    (h : rest = name ∨ ∃ more, rest = name ++ ']' :: more) :
    authority_name ('[' :: rest) ∈ ["localhost".toList, "127.0.0.1".toList, "::1".toList] := by
  have hclosing : ∀ name ∈ ["localhost".toList, "127.0.0.1".toList, "::1".toList], ']' ∉ name := by
    decide
  have hhead : authority_name ('[' :: rest) = name := Split.headD_iff.mpr ⟨hclosing name hname, h⟩
  rw [hhead]
  exact hname

theorem not_exact_of_loose {host : Str} (h : Loose host) : ¬ Exact host := by
  rintro ⟨name, hname, hexact⟩
  simp only [List.mem_cons, List.not_mem_nil, or_false] at hname
  rcases h with ⟨name', hname', port, rfl, hport⟩ | ⟨name', hname', rfl⟩ |
    ⟨name', hname', rest, rfl⟩ | ⟨rest, rfl, hne, hport⟩
  all_goals try simp only [List.mem_cons, List.not_mem_nil, or_false] at hname'
  · rcases hname' with rfl | rfl <;> rcases hname with rfl | rfl | rfl <;>
      rcases hexact with hexact | ⟨port', hexact, hport'⟩ <;> simp at hexact
    all_goals exact hport (hexact ▸ hport')
  · rcases hname' with rfl | rfl | rfl <;> rcases hname with rfl | rfl | rfl <;>
      rcases hexact with hexact | ⟨port', hexact, hport'⟩ <;> simp at hexact
  · rcases hname' with rfl | rfl <;> rcases hname with rfl | rfl | rfl <;>
      rcases hexact with hexact | ⟨port', hexact, hport'⟩ <;> simp at hexact
  · rcases hname with rfl | rfl | rfl <;>
      rcases hexact with hexact | ⟨port', hexact, hport'⟩ <;> simp at hexact
    · exact hne hexact
    · exact hport port' hexact hport'

theorem local_brackets (rest : Str) :
    (rest.splitOn ']').headD [] ∈ ["localhost".toList, "127.0.0.1".toList, "::1".toList] →
      Exact ('[' :: rest) ∨ Loose ('[' :: rest) := by
  intro hmem
  obtain ⟨-, hrest⟩ := Split.headD_iff.mp (rfl : (rest.splitOn ']').headD [] = _)
  generalize (rest.splitOn ']').headD [] = name at hmem hrest
  obtain rfl | ⟨more, rfl⟩ := hrest
  · exact .inr (.inr (.inl ⟨rest, hmem, rfl⟩))
  · simp only [List.mem_cons, List.not_mem_nil, or_false] at hmem
    rcases hmem with rfl | rfl | rfl
    · exact .inr (.inr (.inr (.inl ⟨_, by decide, more, rfl⟩)))
    · exact .inr (.inr (.inr (.inl ⟨_, by decide, more, rfl⟩)))
    · by_cases hexact : more = [] ∨ ∃ port, more = ':' :: port ∧ IsPort port
      · refine .inl ⟨"[::1]".toList, by decide, ?_⟩
        obtain rfl | ⟨port, rfl, hport⟩ := hexact
        · exact .inl rfl
        · exact .inr ⟨port, rfl, hport⟩
      · rw [not_or, not_exists] at hexact
        exact .inr (.inr (.inr (.inr ⟨more, rfl, hexact.1,
          fun port hmore hport => hexact.2 port ⟨hmore, hport⟩⟩)))

theorem local_plain (host : Str)
    (hmem : (host.splitOn ':').headD [] ∈ ["localhost".toList, "127.0.0.1".toList, "::1".toList]) :
    Exact host ∨ Loose host := by
  obtain ⟨hcolon, hhost⟩ := Split.headD_iff.mp (rfl : (host.splitOn ':').headD [] = _)
  generalize (host.splitOn ':').headD [] = name at hmem hcolon hhost
  have hname : name ∈ ["localhost".toList, "127.0.0.1".toList] := by
    simp only [List.mem_cons, List.not_mem_nil, or_false] at hmem ⊢
    rcases hmem with h | h | rfl
    · exact .inl h
    · exact .inr h
    · exact absurd hcolon (by decide)
  have hthree : name ∈ ["localhost".toList, "127.0.0.1".toList, "[::1]".toList] :=
    List.mem_append_left ["[::1]".toList] hname
  obtain rfl | ⟨port, rfl⟩ := hhost
  · exact .inl ⟨host, hthree, .inl rfl⟩
  · by_cases hport : IsPort port
    · exact .inl ⟨name, hthree, .inr ⟨port, rfl, hport⟩⟩
    · exact .inr (.inl ⟨name, hname, port, rfl, hport⟩)

-- The names are looked at, and what is left of the host is not.
theorem local_iff (host : Str) :
    authority_name host ∈ ["localhost".toList, "127.0.0.1".toList, "::1".toList] ↔
      Exact host ∨ Loose host := by
  constructor
  · intro hmem
    unfold authority_name at hmem
    split at hmem
    · exact local_brackets _ hmem
    · exact local_plain host hmem
  · rintro (⟨name, hname, hexact⟩ | ⟨name, hname, port, rfl, -⟩ | ⟨name, hname, rfl⟩ |
      ⟨name, hname, rest, rfl⟩ | ⟨rest, rfl, -, -⟩)
    · have hcases : name ∈ ["localhost".toList, "127.0.0.1".toList] ∨ name = "[::1]".toList := by
        simpa [or_assoc] using hname
      have hany : host = name ∨ ∃ port, host = name ++ ':' :: port :=
        hexact.imp_right fun ⟨port, hport, _⟩ => ⟨port, hport⟩
      rcases hcases with hplain | rfl
      · exact authority_plain hplain hany
      · obtain rfl | ⟨port, rfl⟩ := hany
        · exact authority_brackets "::1".toList (by decide) (.inr ⟨[], rfl⟩)
        · exact authority_brackets "::1".toList (by decide) (.inr ⟨':' :: port, rfl⟩)
    · exact authority_plain hname (.inr ⟨port, rfl⟩)
    · exact authority_brackets name hname (.inl rfl)
    · exact authority_brackets name (List.mem_append_left ["::1".toList] hname) (.inr ⟨rest, rfl⟩)
    · exact authority_brackets "::1".toList (by decide) (.inr ⟨rest, rfl⟩)

end Names

section Requests

def host_of (headers : HeaderMap) : Option Str := (headers.get "host").bind to_str

-- The request reaches its route, whatever the route is.
def Admitted (pin : Option Str) (req : Request) : Prop :=
  ∀ next : Request → Response,
    guard pin next req = (0, { next req with headers := protect (next req).headers })

-- A change asked by a page carries the mark of this page.
def Marked (req : Request) : Prop :=
  req.method = .post → req.headers.get "x-requested-with" = some (Utf8.encode "altkeeper".toList)

-- What the request must be, to go further without a PIN.
def FromHere (req : Request) : Prop := (∃ host, host_of req.headers = some host ∧ Exact host) ∧ Marked req

theorem admitted_iff (pin : Option Str) (req : Request) : Admitted pin req ↔ refusal pin req = none := by
  unfold Admitted guard
  cases refusal pin req with
  | none => simp
  | some refused =>
      -- Two routes would have to give the same answer.
      refine iff_of_false (fun h => ?_) (by simp)
      have hzero := congrArg (·.2.status) (h fun _ => ⟨0, [], []⟩)
      have hone := congrArg (·.2.status) (h fun _ => ⟨1, [], []⟩)
      exact absurd (hzero.symm.trans hone) (by decide)

theorem refusal_none_iff (req : Request) :
    refusal none req = none ↔ host_is_local req.headers = true ∧ Marked req := by
  unfold refusal Marked
  by_cases hhost : host_is_local req.headers = true
  · by_cases hpost : req.method = .post
    · simp [hhost, hpost]
    · simp [hhost, hpost]
  · simp [hhost]

theorem host_is_local_iff (headers : HeaderMap) :
    host_is_local headers = true ↔ ∃ host, host_of headers = some host ∧ (Exact host ∨ Loose host) := by
  unfold host_is_local host_of
  cases (headers.get "host").bind to_str with
  | none => simp
  | some host =>
      simp only [List.contains_iff_mem, local_iff, Option.some.injEq, exists_eq_left']

-- A request that goes further is a local one, unless its host is one of those that are only
-- looked at in part.
theorem guard_local_iff (req : Request) :
    (Admitted none req → FromHere req) ↔
      ∀ host, host_of req.headers = some host → Loose host → ¬ Marked req := by
  rw [admitted_iff, refusal_none_iff, host_is_local_iff]
  constructor
  · intro h host hhost hloose hmarked
    obtain ⟨⟨host', hhost', hexact⟩, -⟩ := h ⟨⟨host, hhost, .inr hloose⟩, hmarked⟩
    obtain rfl : host = host' := Option.some.inj (hhost.symm.trans hhost')
    exact not_exact_of_loose hloose hexact
  · rintro h ⟨⟨host, hhost, hexact | hloose⟩, hmarked⟩
    · exact ⟨⟨host, hhost, hexact⟩, hmarked⟩
    · exact absurd hmarked (h host hhost hloose)

-- A name that begins as the loopback address does.
theorem guard_not_local : ¬ ∀ req : Request, Admitted none req → FromHere req := by
  intro h
  let req : Request :=
    { method := .get, headers := [("host".toList, Utf8.encode "[::1].example.com".toList)] }
  have hpasses : Admitted none req := (admitted_iff none req).mpr (by decide +kernel)
  obtain ⟨⟨host, hhost, hexact⟩, -⟩ := h req hpasses
  have hread : host_of req.headers = some "[::1].example.com".toList := by decide +kernel
  obtain rfl : host = "[::1].example.com".toList := Option.some.inj (hhost.symm.trans hread)
  have hloose : Loose "[::1].example.com".toList :=
    .inr (.inr (.inr ⟨".example.com".toList, by decide, by decide, by simp⟩))
  exact not_exact_of_loose hloose hexact

end Requests

end AltKeeper.Web
