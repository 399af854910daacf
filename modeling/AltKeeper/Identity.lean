import AltKeeper.Text
import Mathlib.Data.List.Basic

-- The names the server gives itself.
namespace AltKeeper.AltServer

def hex_byte (b : UInt8) : Str := [Nat.digitChar (b.toNat / 16), Nat.digitChar (b.toNat % 16)]

-- The id kept in `state/altserver-id`, when the file holds one.
def stored_id (content : Str) : Option Str :=
  let s := content.trim
  if 8 ≤ s.len then some s else none

def server_id (stored : Option Str) (urandom : Except Str Octets) (save : Except Str Unit) :
    Except Str Str :=
  match stored.bind stored_id with
  | some s => .ok s
  | none => do
      let bytes ← urandom.mapError ("non riesco a generare il serverID: ".toList ++ ·)
      let id := bytes.flatMap hex_byte
      save.mapError ("non riesco a salvare il serverID: ".toList ++ ·)
      .ok id

-- `stdout` is what the command `hostname` printed, when it ran and succeeded.
def hostname (stdout : Option Octets) : Str :=
  let name := do
    let s ← Utf8.decode? (← stdout)
    let first := ((Str.trim s).splitOn '.').headD []
    if first ≠ [] ∧ ¬ first.all Char.isDigit then some first else none
  name.getD "altkeeper".toList

def instance_name (stdout : Option Octets) : Str := "altkeeper-".toList ++ hostname stdout

theorem hostname_spec (stdout : Option Octets) : hostname stdout ≠ [] ∧ '.' ∉ hostname stdout := by
  unfold hostname
  cases stdout with
  | none => decide
  | some bytes =>
      cases hs : Utf8.decode? bytes with
      | none =>
          simp only [Option.bind_eq_bind, Option.bind_some, hs, Option.bind_none]
          decide
      | some s =>
          simp only [Option.bind_eq_bind, Option.bind_some, hs]
          split_ifs with hname
          · obtain ⟨first, rest, hsplit⟩ := List.exists_cons_of_ne_nil (List.splitOn_ne_nil '.' (Str.trim s))
            rw [hsplit] at hname ⊢
            refine ⟨hname.1, fun hdot => ?_⟩
            exact (Split.mem_of_mem_piece (hsplit ▸ List.mem_cons_self) '.' hdot).2 rfl
          · decide

theorem stored_id_spec {content id : Str} (h : stored_id content = some id) : 8 ≤ id.len := by
  simp only [stored_id] at h
  split_ifs at h with hlen
  cases h
  exact hlen

theorem length_hex (bytes : Octets) : (bytes.flatMap hex_byte).length = 2 * bytes.length := by
  induction bytes with
  | nil => rfl
  | cons b bytes ih =>
      rw [List.flatMap_cons, List.length_append, ih, List.length_cons]
      simp only [hex_byte, List.length_cons, List.length_nil]
      omega

-- Whatever happens, an id has the 8 bytes that its users slice.
theorem server_id_spec {stored : Option Str} {urandom : Except Str Octets} {save : Except Str Unit}
    {id : Str} (hrandom : ∀ bytes, urandom = .ok bytes → bytes.length = 16)
    (h : server_id stored urandom save = .ok id) : 8 ≤ id.len := by
  unfold server_id at h
  cases hstored : stored.bind stored_id with
  | some s =>
      rw [hstored] at h
      cases h
      obtain ⟨content, -, hs⟩ := Option.bind_eq_some_iff.mp hstored
      exact stored_id_spec hs
  | none =>
      rw [hstored] at h
      cases urandom with
      | error e => cases h
      | ok bytes =>
          cases save with
          | error e => cases h
          | ok _ =>
              cases h
              have hlen := Utf8.length_le_encode (bytes.flatMap hex_byte)
              rw [length_hex, hrandom bytes rfl] at hlen
              unfold Str.len
              omega

end AltKeeper.AltServer
