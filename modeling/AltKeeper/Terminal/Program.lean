import AltKeeper.Main.Checks
import AltKeeper.Terminal.Apps

-- The whole program: what is for the terminal is carried out by the commands of the terminal.
namespace AltKeeper.Terminal

open Main (Starts Started)
open Prog (Both Trace expand_congr inner outer runs_inner uses_outer_left)

section Program

-- Calls of the program, and calls of its sessions at the terminal.
abbrev Whole := Prog (Both (Both Main.Answer Resp) (Both GrandSlam.Answer Answer))

variable (lib : Developer.Libs) (ext : Ext)

def carry : (c : Main.Call ⊕ Cmd) → Whole (Both Main.Answer Resp c)
  | .inl (.login apple_id) => inner (cmd_login lib ext apple_id)
  | .inl .apps => inner (cmd_apps lib ext)
  | c => Prog.perform (Sum.inl c)

def program (vars : Str → Option Str) (line : List Str) : Whole (Except Fail Unit) :=
  (Main.main ext vars line).expand (carry lib ext)

-- What a command ends with is what the program ends with.
def ended (p : Session (Except Str Unit)) : Whole (Except Fail Unit) :=
  inner p >>= fun r => .ret (r.mapError .err)

variable {lib ext} {vars : Str → Option Str}

theorem program_login (args : List Str) :
    program lib ext vars ("login".toList :: args) = ended (cmd_login lib ext args.head?) := by
  have hmain : Main.main ext vars ("login".toList :: args) =
      outer (Main.try_call [] (Main.call (.login args.head?))).run := by
    rw [Main.main, if_neg (by decide), if_neg (by decide), if_neg (by decide), if_pos rfl]
  rw [program, hmain]
  rfl

theorem program_apps (args : List Str) :
    program lib ext vars ("apps".toList :: args) = ended (cmd_apps lib ext) := by
  have hmain : Main.main ext vars ("apps".toList :: args) =
      outer (Main.try_call [] (Main.call .apps)).run := by
    rw [Main.main, if_neg (by decide), if_neg (by decide), if_neg (by decide), if_neg (by decide),
      if_pos rfl]
  rw [program, hmain]
  rfl

-- On any other line the program is what it is without the terminal.
theorem program_other {line : List Str} (hlogin : ∀ args, line ≠ "login".toList :: args)
    (happs : ∀ args, line ≠ "apps".toList :: args) :
    program lib ext vars line = outer (Main.main ext vars line) := by
  refine expand_congr (Main.main_uses line) fun c hc => ?_
  cases c with
  | inr c => rfl
  | inl c =>
      cases c with
      | login apple_id =>
          cases hc with
          | nothing quiet => cases quiet
          | login typed => exact absurd typed (hlogin _)
      | apps =>
          cases hc with
          | nothing quiet => cases quiet
          | apps typed => exact absurd typed (happs _)
      | _ => rfl

end Program

section Runs

variable {lib : Developer.Libs} {ext : Ext} {vars : Str → Option Str}
  {before after : Trace (Both (Both Main.Answer Resp) (Both GrandSlam.Answer Answer))}
  {c : GrandSlam.Call ⊕ Call} {r : Both GrandSlam.Answer Answer c} {result : Except Fail Unit}

-- What a command calls when it is run by the program, it calls when it is run alone.
theorem ended_runs {p : Session (Except Str Unit)}
    (h : (ended p).Runs (before ++ ⟨.inr c, r⟩ :: after) result) :
    ∃ ending, p.Runs (Trace.inner before ++ ⟨c, r⟩ :: Trace.inner after) ending := by
  obtain ⟨trace, ending, rest, hsplit, hrun, hret⟩ := (Prog.runs_bind _ _ _ _).mp h
  obtain rfl : rest = [] := hret.1
  rw [List.append_nil] at hsplit
  have hinner := (runs_inner hrun).1
  rw [← hsplit, Trace.inner_append] at hinner
  exact ⟨ending, hinner⟩

-- What a line calls at the terminal is called by one of its two commands.
theorem program_runs {line : List Str}
    (h : (program lib ext vars line).Runs (before ++ ⟨.inr c, r⟩ :: after) result) :
    ∃ args, (line = "login".toList :: args ∧ ∃ ending, (cmd_login lib ext args.head?).Runs
        (Trace.inner before ++ ⟨c, r⟩ :: Trace.inner after) ending) ∨
      (line = "apps".toList :: args ∧ ∃ ending, (cmd_apps lib ext).Runs
        (Trace.inner before ++ ⟨c, r⟩ :: Trace.inner after) ending) := by
  by_cases hlogin : ∃ args, line = "login".toList :: args
  · obtain ⟨args, rfl⟩ := hlogin
    rw [program_login] at h
    exact ⟨args, .inl ⟨rfl, ended_runs h⟩⟩
  · by_cases happs : ∃ args, line = "apps".toList :: args
    · obtain ⟨args, rfl⟩ := happs
      rw [program_apps] at h
      exact ⟨args, .inr ⟨rfl, ended_runs h⟩⟩
    · rw [program_other (not_exists.mp hlogin) (not_exists.mp happs)] at h
      have hleft := (uses_outer_left _).mem h _ (List.mem_append_right _ List.mem_cons_self)
      cases hleft

-- Whatever line the program is given, an account is saved at the terminal only by `login`, and only
-- one that was earned.
theorem program_saves (hvec : ∀ node teams, lib.teams node = .ok teams → teams.length < 2 ^ 63)
    {line : List Str} {acc : Account} {saved : Except Str Unit}
    (h : (program lib ext vars line).Runs
      (before ++ ⟨.inr (.inr (.save_account acc)), saved⟩ :: after) result) :
    ∃ apple_id args, line = "login".toList :: apple_id :: args ∧
      Earned lib ext apple_id (Trace.inner before) acc := by
  obtain ⟨args, ⟨rfl, ending, hrun⟩ | ⟨rfl, ending, hrun⟩⟩ := program_runs h
  · cases args with
    | nil => exact absurd hrun.1 (by simp)
    | cons apple_id args =>
        exact ⟨apple_id, args, rfl, Prog.chronicle_allows (cmd_login_wp hvec apple_id) hrun⟩
  · exact (Prog.chronicle_allows cmd_apps_wp hrun : Reads lib ext _ _).elim

-- What the program asks of Apple's services on the line of `apps` is what the command may ask.
theorem program_reads {args : List Str}
    (h : (program lib ext vars ("apps".toList :: args)).Runs (before ++ ⟨.inr c, r⟩ :: after) result) :
    Reads lib ext (Trace.inner before) c := by
  rw [program_apps] at h
  obtain ⟨ending, hrun⟩ := ended_runs h
  exact Prog.chronicle_allows cmd_apps_wp hrun

end Runs

end AltKeeper.Terminal
