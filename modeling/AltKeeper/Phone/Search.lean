import AltKeeper.Phone

-- What the search of the phone can call, and nothing more.
namespace AltKeeper

def Cmd.finds : Cmd → Bool
  | .pairing_exists => true
  | .read_last_addr => true
  | .write_last_addr _ => true
  | .discover => true
  | .scan_lan _ => true
  | .connect _ => true
  | _ => false

namespace Phone

variable {ext : Ext} {P : Cmd → Prop}

theorem read_last_addr_uses (hread : P .read_last_addr) : (read_last_addr ext).Uses P :=
  ⟨hread, fun _ => trivial⟩

theorem write_last_addr_uses (hread : P .read_last_addr) (hwrite : ∀ text, P (.write_last_addr text))
    (addr : SocketAddr) : (write_last_addr ext addr).Uses P := by
  apply Prog.Uses.bind (read_last_addr_uses hread)
  intro last
  split
  · trivial
  · exact ⟨hwrite _, fun _ => trivial⟩

variable (hfinds : ∀ c : Cmd, c.finds = true → P c)

include hfinds

theorem attempt_uses (addr : SocketAddr) : (attempt ext addr).Uses P := by
  refine ⟨hfinds _ rfl, fun r => ?_⟩
  cases r with
  | linked =>
      apply Prog.Uses.bind (write_last_addr_uses (hfinds _ rfl) (fun _ => hfinds _ rfl) addr)
      exact fun _ => trivial
  | failed e => trivial
  | expired => trivial

variable {say : Str → Act Unit} (hsay : ∀ line, (say line).Uses P)

include hsay

theorem try_known_uses (known : List SocketAddr) (s : Search) :
    (try_known ext say known s).Uses P := by
  induction known generalizing s with
  | nil => trivial
  | cons addr known ih =>
      apply Prog.Uses.bind (attempt_uses hfinds addr)
      intro r
      cases r with
      | ok _ => trivial
      | error e =>
          apply Prog.Uses.bind (hsay _)
          exact fun _ => ih _

theorem try_found_uses (found : List SocketAddr) (s : Search) :
    (try_found ext say found s).Uses P := by
  induction found generalizing s with
  | nil => trivial
  | cons addr found ih =>
      apply Prog.Uses.bind (hsay _)
      intro _
      apply Prog.Uses.bind (attempt_uses hfinds addr)
      intro r
      cases r with
      | ok _ => trivial
      | error e => exact ih _

theorem find_step_uses (port : UInt16) (step : Nat) : (find_step say port step).Uses P := by
  unfold find_step
  split
  · apply Prog.Uses.bind (hsay _)
    exact fun _ => ⟨hfinds _ rfl, fun _ => trivial⟩
  · exact ⟨hfinds _ rfl, fun _ => trivial⟩

theorem search_uses (port : UInt16) (steps : List Nat) (s : Search) :
    (search ext say port steps s).Uses P := by
  induction steps generalizing s with
  | nil => trivial
  | cons step steps ih =>
      apply Prog.Uses.bind (find_step_uses hfinds hsay port step)
      intro found
      apply Prog.Uses.bind (try_found_uses hfinds hsay _ s)
      rintro ⟨addr, s'⟩
      cases addr with
      | some addr => trivial
      | none => exact ih s'

omit hfinds in
theorem say_searching_uses (tried : List SocketAddr) : (say_searching say tried).Uses P := by
  unfold say_searching
  split
  · exact hsay _
  · trivial

theorem connect_auto_uses (preferred : Option SocketAddr) :
    (connect_auto ext say preferred).Uses P := by
  refine ⟨hfinds _ rfl, fun exists_pairing => ?_⟩
  cases exists_pairing with
  | false => trivial
  | true =>
      apply Prog.Uses.bind (read_last_addr_uses (hfinds _ rfl))
      intro last
      apply Prog.Uses.bind (try_known_uses hfinds hsay _ _)
      rintro ⟨addr, s⟩
      cases addr with
      | some addr => trivial
      | none =>
          apply Prog.Uses.bind (say_searching_uses hsay _)
          intro _
          apply Prog.Uses.bind (read_last_addr_uses (hfinds _ rfl))
          intro last'
          apply Prog.Uses.bind (search_uses hfinds hsay _ _ s)
          rintro ⟨addr, s'⟩
          cases addr with
          | some addr => trivial
          | none =>
              dsimp only
              split <;> trivial

end Phone

end AltKeeper
