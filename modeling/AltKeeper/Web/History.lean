import AltKeeper.Text.Lines
import AltKeeper.Web
import Mathlib.Data.List.DropRight
import Mathlib.Data.List.Forall2

-- What the page and the cron write in the log of renewals, and what the page reads there.
namespace AltKeeper.Web

section Script

-- `$(..)` of the shell loses the newlines at the end of an output.
def substitute (out : Str) : Str := out.rdropWhile (· == '\n')

-- What `renew.sh` appends. `echo` is the shell's: it writes its operand and a newline, unless it
-- finds options or escapes there.
def renew_sh (echo : Str → Str) (date out : Str) (rc : Nat) : Str :=
  let OUT := substitute out
  echo ("=== ".toList ++ date) ++ echo OUT ++ echo ("esito: ".toList ++ (toString rc).toList)

end Script

section Runs

inductive Outcome where
  | page (ok : Bool)
  | cron (rc : Nat)

def Outcome.code : Outcome → Nat
  | .page ok => if ok then 0 else 1
  | .cron rc => rc

-- One renewal: its date, what it said, and how it ended.
structure Run where
  date : Str
  lines : List Str
  outcome : Outcome
  one_line : '\n' ∉ date
  no_end : ∀ line ∈ lines, '\n' ∉ line
  no_heading : ∀ line ∈ lines, ¬ "=== ".toList <+: line

-- The log can be opened, and it is that time.
def opened (date : Str) : (c : Cmd) → Resp c
  | .open_renew_log => true
  | .local_time => date
  | c => silent c

-- What is at the end of the log after the calls.
def appended (trace : Prog.Trace Resp) : Str := trace.flatMap fun e =>
  match e with
  | ⟨.append_renew_log text, _⟩ => text
  | _ => []

namespace Run

variable (echo : Str → Str) (run : Run)

def text : Str :=
  match run.outcome with
  | .page ok => appended ((append_log run.lines ok).exec (fun _ c => (opened run.date c, ())) ()).1
  | .cron rc => renew_sh echo run.date (Str.unlines run.lines) rc

-- What the shell is asked to write.
def operands : List Str :=
  match run.outcome with
  | .page _ => []
  | .cron rc => ["=== ".toList ++ run.date, substitute (Str.unlines run.lines),
      "esito: ".toList ++ (toString rc).toList]

def heading : Str :=
  match run.outcome with
  | .page _ => run.date ++ " (interfaccia web)".toList
  | .cron _ => run.date

def result : Str :=
  match run.outcome with
  | .page ok => "result: ".toList ++ (if ok then "0" else "1").toList
  | .cron rc => "esito: ".toList ++ (toString rc).toList

def tells_install (line : Str) : Bool :=
  line.contains "installato sul telefono".toList || line.contains "installed on the phone".toList

def installed : Nat := run.lines.countP tells_install

-- What the page shows of the run.
def Shows (v : Value) : Prop := ∃ summary : Str,
  v = .object [("when".toList, .string (Str.trim run.heading)),
    ("ok".toList, .bool (run.outcome.code == 0)), ("summary".toList, .string summary)] ∧
  (run.outcome.code = 0 → 1 ≤ run.installed →
    summary = "Renewed ".toList ++ (toString run.installed).toList ++ " apps".toList)

end Run

end Runs

section Texts

-- Only empty lines are lost, at the end, and an output of empty lines is one empty line.
theorem substitute_unlines (ls : List Str) (h : ∀ l ∈ ls, '\n' ∉ l) :
    ∃ kept lost, substitute (Str.unlines ls) ++ ['\n'] = Str.unlines kept ∧ (∀ l ∈ lost, l = []) ∧
      (ls = kept ++ lost ∨ kept = [[]] ∧ ls = lost) := by
  induction ls using List.reverseRecOn with
  | nil => exact ⟨[[]], [], rfl, by simp, .inr ⟨rfl, rfl⟩⟩
  | append_singleton ls l ih =>
      have hconcat : substitute (Str.unlines (ls ++ [l])) = substitute (Str.unlines ls ++ l) := by
        have htext : Str.unlines (ls ++ [l]) = Str.unlines ls ++ l ++ ['\n'] := by
          simp [Str.unlines]
        rw [htext, substitute, List.rdropWhile_concat_pos _ _ _ (by simp), substitute]
      by_cases hl : l = []
      · subst hl
        obtain ⟨kept, lost, htext, hlost, hsplit⟩ := ih fun m hm => h m (List.mem_append_left _ hm)
        refine ⟨kept, lost ++ [[]], ?_, ?_, ?_⟩
        · rw [hconcat, List.append_nil, htext]
        · intro m hm
          rcases List.mem_append.mp hm with hm | hm
          · exact hlost m hm
          · exact List.mem_singleton.mp hm
        · rcases hsplit with rfl | ⟨rfl, rfl⟩
          · exact .inl (List.append_assoc ..)
          · exact .inr ⟨rfl, rfl⟩
      · refine ⟨ls ++ [l], [], ?_, by simp, .inl (List.append_nil _).symm⟩
        have hlast : l.getLast hl ≠ '\n' := fun heq => h l (by simp) (heq ▸ List.getLast_mem hl)
        have hkept : substitute (Str.unlines ls ++ l) = Str.unlines ls ++ l := by
          rw [substitute, List.rdropWhile_eq_self_iff]
          intro hne
          rw [List.getLast_append_of_ne_nil _ hl]
          simpa using hlast
        rw [hconcat, hkept]
        simp [Str.unlines]

theorem appended_lines {σ : Type} (answer : σ → (c : Cmd) → Resp c × σ) (s : σ) (ls : List Str)
    (k : Unit → Act Unit) :
    ∃ s', appended ((append_lines ls >>= k).exec answer s).1 =
      Str.unlines ls ++ appended ((k ()).exec answer s').1 := by
  induction ls generalizing s with
  | nil => exact ⟨s, rfl⟩
  | cons l ls ih =>
      obtain ⟨s', hrest⟩ := ih (answer s (.append_renew_log (l ++ "\n".toList))).2
      refine ⟨s', ?_⟩
      rw [Str.unlines_cons, List.append_cons, List.append_assoc, ← hrest]
      rfl

theorem appended_log (date : Str) (lines : List Str) (ok : Bool) :
    appended ((append_log lines ok).exec (fun _ c => (opened date c, ())) ()).1 =
      Str.unlines (("=== ".toList ++ date ++ " (interfaccia web)".toList) ::
        (lines ++ ["result: ".toList ++ (if ok then "0" else "1").toList])) := by
  obtain ⟨s', hlines⟩ := appended_lines (fun _ c => (opened date c, ())) () lines fun _ =>
    ask (.append_renew_log ("result: ".toList ++ (if ok then "0\n" else "1\n").toList))
  have hrun : appended ((append_log lines ok).exec (fun _ c => (opened date c, ())) ()).1 =
      "=== ".toList ++ date ++ " (interfaccia web)\n".toList ++
        appended ((append_lines lines >>= fun _ => ask (.append_renew_log
          ("result: ".toList ++ (if ok then "0\n" else "1\n").toList))).exec
            (fun _ c => (opened date c, ())) ()).1 := rfl
  rw [hrun, hlines, Str.unlines_cons, Str.unlines_append]
  cases ok <;> simp [Prog.perform, Prog.exec, appended, Str.unlines]

theorem tells_install_of_no_n {line : Str} (h : 'n' ∉ line) : Run.tells_install line = false := by
  have hno : ∀ word : Str, 'n' ∈ word → line.contains word = false := by
    intro word hword
    rw [Bool.eq_false_iff]
    intro hin
    exact h ((Str.contains_iff.mp hin).subset hword)
  rw [Run.tells_install, hno _ (by decide), hno _ (by decide)]
  rfl

namespace Run

variable (run : Run)

-- A line that is kept of the output.
def Kept (said : List Str) : Prop :=
  (∀ line ∈ said, '\n' ∉ line ∧ ¬ "=== ".toList <+: line) ∧ said.countP tells_install = run.installed

theorem kept_output : ∃ said, substitute (Str.unlines run.lines) ++ ['\n'] = Str.unlines said ∧
    run.Kept said := by
  obtain ⟨said, lost, htext, hlost, hsplit⟩ := substitute_unlines run.lines run.no_end
  have hcount : lost.countP tells_install = 0 := by
    rw [List.countP_eq_zero]
    intro line hline
    rw [hlost line hline, tells_install_of_no_n (by simp)]
    decide
  refine ⟨said, htext, ?_, ?_⟩
  · intro line hline
    rcases hsplit with hsplit | ⟨rfl, -⟩
    · have hmem : line ∈ run.lines := by
        rw [hsplit]
        exact List.mem_append_left _ hline
      exact ⟨run.no_end line hmem, run.no_heading line hmem⟩
    · rw [List.mem_singleton.mp hline]
      decide
  · unfold installed
    rcases hsplit with hsplit | ⟨rfl, hsplit⟩
    · rw [hsplit, List.countP_append, hcount, Nat.add_zero]
    · rw [hsplit, hcount]
      decide

theorem text_eq {echo : Str → Str} (hecho : ∀ s ∈ run.operands, echo s = s ++ ['\n']) :
    ∃ said, run.text echo =
        Str.unlines (("=== ".toList ++ run.heading) :: (said ++ [run.result])) ∧ run.Kept said := by
  unfold operands at hecho
  unfold text heading result
  cases hout : run.outcome with
  | page ok =>
      refine ⟨run.lines, ?_, fun line hline => ⟨run.no_end line hline, run.no_heading line hline⟩, rfl⟩
      dsimp only
      rw [appended_log, List.append_assoc]
  | cron rc =>
      obtain ⟨said, hsaid, hkept⟩ := run.kept_output
      refine ⟨said, ?_, hkept⟩
      rw [hout] at hecho
      simp only [List.forall_mem_cons] at hecho
      obtain ⟨hdate, hlines, hresult, -⟩ := hecho
      dsimp only
      rw [renew_sh, hdate, hlines, hresult, hsaid, Str.unlines_cons, Str.unlines_append]
      simp [Str.unlines]

end Run

end Texts

section Blocks

theorem history_blocks_append (ls ms : List Str) (blocks : List (Str × List Str)) :
    history_blocks (ls ++ ms) blocks = history_blocks ms (history_blocks ls blocks) := by
  induction ls generalizing blocks with
  | nil => rfl
  | cons l ls ih =>
      rw [List.cons_append, history_blocks, history_blocks]
      cases l.dropPrefix? "=== ".toList with
      | some heading => exact ih _
      | none =>
          cases blocks.getLast? with
          | none => exact ih _
          | some block => exact ih _

theorem dropPrefix?_of_not {line word : Str} (h : ¬ word <+: line) : line.dropPrefix? word = none := by
  rw [Option.eq_none_iff_forall_ne_some]
  intro rest hrest
  obtain ⟨begins, rfl, heq⟩ := List.dropPrefix?_eq_some_iff.mp hrest
  rw [eq_of_beq heq] at h
  exact h (List.prefix_append _ _)

-- What comes before any heading is passed over.
theorem history_blocks_before {ls : List Str} (h : ∀ line ∈ ls, ¬ "=== ".toList <+: line) :
    history_blocks ls [] = [] := by
  induction ls with
  | nil => rfl
  | cons l ls ih =>
      rw [history_blocks, dropPrefix?_of_not (h l List.mem_cons_self)]
      exact ih fun line hline => h line (List.mem_cons_of_mem _ hline)

theorem history_blocks_said {ls : List Str} (h : ∀ line ∈ ls, ¬ "=== ".toList <+: line)
    (blocks : List (Str × List Str)) (heading : Str) (said : List Str) :
    history_blocks ls (blocks ++ [(heading, said)]) = blocks ++ [(heading, said ++ ls)] := by
  induction ls generalizing said with
  | nil => rw [history_blocks, List.append_nil]
  | cons l ls ih =>
      rw [history_blocks, dropPrefix?_of_not (h l List.mem_cons_self)]
      simp only [List.getLast?_concat, List.dropLast_concat]
      rw [ih (fun line hline => h line (List.mem_cons_of_mem _ hline)), List.append_assoc]
      rfl

theorem history_blocks_heading (heading : Str) (ls : List Str) (blocks : List (Str × List Str)) :
    history_blocks (Str.drop_return ("=== ".toList ++ heading) :: ls) blocks =
      history_blocks ls (blocks ++ [(Str.trim heading, [])]) := by
  obtain ⟨shown, hline, htrim⟩ : ∃ shown,
      Str.drop_return ("=== ".toList ++ heading) = "=== ".toList ++ shown ∧
        Str.trim shown = Str.trim heading := by
    by_cases hnil : heading = []
    · subst hnil
      exact ⟨[], by decide, rfl⟩
    · exact ⟨_, Str.drop_return_append hnil, Str.trim_drop_return heading⟩
  rw [hline, history_blocks, List.dropPrefix?_append_of_beq _ (beq_self_eq_true _), ← htrim]

end Blocks

section Results

variable (run : Run)

theorem Run.not_mem_result {c : Char} (hdigit : c.isDigit = false)
    (hword : c ∉ "result: ".toList ++ "esito: ".toList) : c ∉ run.result := by
  rw [List.mem_append, not_or] at hword
  unfold Run.result
  cases run.outcome with
  | page ok =>
      intro hmem
      rcases List.mem_append.mp hmem with hmem | hmem
      · exact hword.1 hmem
      · have hcode : c = '0' ∨ c = '1' := by
          cases ok with
          | true => exact .inl (List.mem_singleton.mp hmem)
          | false => exact .inr (List.mem_singleton.mp hmem)
        rcases hcode with rfl | rfl <;> cases hdigit
  | cron rc =>
      intro hmem
      rcases List.mem_append.mp hmem with hmem | hmem
      · exact hword.2 hmem
      · exact Str.digit_ne (Str.isDigit_of_mem c hmem) hdigit rfl

theorem Run.result_no_heading : ¬ "=== ".toList <+: run.result := by
  unfold Run.result
  cases run.outcome with
  | page ok => cases ok <;> decide
  | cron rc =>
      rintro ⟨rest, hrest⟩
      simp at hrest

theorem Run.drop_return_result : Str.drop_return run.result = run.result := by
  rw [Str.drop_return, if_neg]
  intro hlast
  exact run.not_mem_result (by decide) (by decide) (List.mem_of_getLast? hlast)

theorem trim_blank (s : Str) : Str.trim (' ' :: s) = Str.trim s := by
  rw [Str.trim, List.dropWhile_cons_of_pos (by decide), Str.trim]

theorem history_code_concat (said : List Str) :
    (history_code (said ++ [run.result]) == some 0) = (run.outcome.code == 0) := by
  have hlast : history_code (said ++ [run.result]) =
      ((result_of run.result).or (said.reverse.findSome? result_of)).bind fun c =>
        Str.parse_i32 (Str.trim c) := by
    rw [history_code, List.reverse_append, List.reverse_singleton, List.singleton_append,
      List.findSome?_cons]
    cases result_of run.result <;> rfl
  rw [hlast]
  unfold Run.result
  cases run.outcome with
  | page ok => cases ok <;> rfl
  | cron rc =>
      have hread : result_of ("esito: ".toList ++ (toString rc).toList) =
          some (' ' :: (toString rc).toList) := by
        have hword : "esito: ".toList ++ (toString rc).toList =
            "esito:".toList ++ ' ' :: (toString rc).toList := rfl
        rw [result_of, hword, List.dropPrefix?_append_of_beq _ (beq_self_eq_true _)]
      have htrim : Str.trim (toString rc).toList = (toString rc).toList :=
        Str.trim_eq_self fun c hc => Str.digit_not_whitespace (Str.isDigit_of_mem c hc)
      rw [hread, Option.some_or, Option.bind_some, trim_blank, htrim, Bool.eq_iff_iff, beq_iff_eq,
        beq_iff_eq]
      constructor
      · intro hzero
        exact Int.ofNat_eq_zero.mp (Str.parse_i32_decimal hzero).symm
      · intro hzero
        rw [show rc = 0 from hzero]
        decide

theorem history_summary_concat (ext : Ext) {said : List Str} (hzero : run.outcome.code = 0)
    (hsome : 1 ≤ said.countP Run.tells_install) :
    history_summary ext (said ++ [run.result]) =
      "Renewed ".toList ++ (toString (said.countP Run.tells_install)).toList ++ " apps".toList := by
  have hcode : history_code (said ++ [run.result]) = some 0 := by
    have hboth := history_code_concat run said
    rw [hzero] at hboth
    exact eq_of_beq hboth
  have hresult : Run.tells_install run.result = false :=
    tells_install_of_no_n (run.not_mem_result (by decide) (by decide))
  have hcount : (said ++ [run.result]).countP Run.tells_install = said.countP Run.tells_install := by
    rw [List.countP_append, List.countP_singleton, hresult]
    rfl
  have hmessage : (fun l => Str.contains l "installato sul telefono".toList ||
      Str.contains l "installed on the phone".toList) = Run.tells_install := rfl
  unfold history_summary
  simp only [hcode, hmessage, hcount]
  rw [if_neg (by decide), if_pos (by omega)]

end Results

section Log

-- The block of a run in the log.
def Run.Tells (run : Run) (block : Str × List Str) : Prop :=
  block.1 = Str.trim run.heading ∧ ∃ said, block.2 = said ++ [run.result] ∧
    said.countP Run.tells_install = run.installed

theorem Run.shows_of_tells (ext : Ext) {run : Run} {block : Str × List Str} (h : run.Tells block) :
    run.Shows (.object [("when".toList, .string block.1),
      ("ok".toList, .bool (history_code block.2 == some 0)),
      ("summary".toList, .string (history_summary ext block.2))]) := by
  obtain ⟨hwhen, said, hsaid, hcount⟩ := h
  rw [hwhen, hsaid, history_code_concat]
  refine ⟨_, rfl, fun hzero hsome => ?_⟩
  rw [history_summary_concat run ext hzero (hcount ▸ hsome), hcount]

theorem Run.heading_line (run : Run) : '\n' ∉ "=== ".toList ++ run.heading := by
  have hdate := run.one_line
  unfold Run.heading
  cases run.outcome <;> simp [hdate]

theorem history_blocks_run {echo : Str → Str} {run : Run}
    (hecho : ∀ s ∈ run.operands, echo s = s ++ ['\n']) :
    ∃ block, run.Tells block ∧ ∀ rest blocks,
      history_blocks (Str.lines (run.text echo ++ rest)) blocks =
        history_blocks (Str.lines rest) (blocks ++ [block]) := by
  obtain ⟨said, htext, hplain, hcount⟩ := run.text_eq hecho
  have hlines : ∀ line ∈ ("=== ".toList ++ run.heading) :: (said ++ [run.result]), '\n' ∉ line := by
    intro line hline
    rcases List.mem_cons.mp hline with rfl | hline
    · exact run.heading_line
    rcases List.mem_append.mp hline with hline | hline
    · exact (hplain line hline).1
    · rw [List.mem_singleton.mp hline]
      exact run.not_mem_result (by decide) (by decide)
  have hread : ∀ line ∈ said.map Str.drop_return ++ [run.result], ¬ "=== ".toList <+: line := by
    intro line hline
    rcases List.mem_append.mp hline with hline | hline
    · obtain ⟨whole, hwhole, rfl⟩ := List.mem_map.mp hline
      exact fun hbegins => (hplain whole hwhole).2 (hbegins.trans (Str.drop_return_begins whole))
    · rw [List.mem_singleton.mp hline]
      exact run.result_no_heading
  have htells : (said.map Str.drop_return).countP Run.tells_install = run.installed := by
    rw [List.countP_map, ← hcount]
    congr 1
    funext line
    have hone : '\r' ∉ "installato sul telefono".toList := by decide
    have htwo : '\r' ∉ "installed on the phone".toList := by decide
    rw [Function.comp_apply, Run.tells_install, Str.contains_drop_return hone,
      Str.contains_drop_return htwo, Run.tells_install]
  refine ⟨(Str.trim run.heading, said.map Str.drop_return ++ [run.result]),
    ⟨rfl, _, rfl, htells⟩, fun rest blocks => ?_⟩
  rw [htext, Str.lines_unlines_append hlines, List.map_cons, List.map_append, List.map_singleton,
    run.drop_return_result, List.cons_append, history_blocks_heading, history_blocks_append,
    history_blocks_said hread, List.nil_append]

-- Each run adds its block.
theorem history_blocks_runs {echo : Str → Str} {runs : List Run}
    (hecho : ∀ run ∈ runs, ∀ s ∈ run.operands, echo s = s ++ ['\n']) :
    ∃ said, List.Forall₂ Run.Tells runs said ∧ ∀ blocks,
      history_blocks (Str.lines (runs.flatMap (Run.text echo))) blocks = blocks ++ said := by
  induction runs with
  | nil => exact ⟨[], .nil, fun blocks => by rw [List.append_nil]; rfl⟩
  | cons run runs ih =>
      obtain ⟨block, hblock, hrun⟩ := history_blocks_run (hecho run List.mem_cons_self)
      obtain ⟨said, hsaid, hruns⟩ := ih fun r hr => hecho r (List.mem_cons_of_mem _ hr)
      refine ⟨block :: said, .cons hblock hsaid, fun blocks => ?_⟩
      rw [List.flatMap_cons, hrun, hruns, List.append_assoc]
      rfl

theorem history_of_before {before : Str} (hend : before = [] ∨ before.getLast? = some '\n')
    (hplain : ∀ line ∈ Str.lines before, ¬ "=== ".toList <+: line) (rest : Str) :
    history_blocks (Str.lines (before ++ rest)) [] = history_blocks (Str.lines rest) [] := by
  obtain ⟨ls, hls, rfl⟩ := Str.exists_unlines hend
  have hlines := Str.lines_unlines_append hls []
  have hnil : Str.lines [] = [] := rfl
  rw [List.append_nil, hnil, List.append_nil] at hlines
  rw [hlines] at hplain
  rw [Str.lines_unlines_append hls, history_blocks_append, history_blocks_before hplain]

end Log

section Reading

theorem trim_heading (run : Run) (hne : run.date ≠ []) (htrim : Str.trim run.date = run.date) :
    Str.trim run.heading = run.heading := by
  unfold Run.heading
  cases run.outcome with
  | cron rc => exact htrim
  | page ok =>
      apply Str.trim_eq_of_ends
      · intro c hc
        rw [List.head?_append_of_ne_nil _ hne] at hc
        exact Str.head_of_trim htrim hc
      · intro c hc
        rw [List.getLast?_append_of_ne_nil _ (by decide)] at hc
        cases hc
        decide

-- The last runs of the log, from the latest; the date of each is its heading, but for blanks
-- around it.
theorem parse_history_runs (ext : Ext) (echo : Str → Str) (before : Str) (runs : List Run) (max : Nat)
    (hend : before = [] ∨ before.getLast? = some '\n')
    (hplain : ∀ line ∈ Str.lines before, ¬ "=== ".toList <+: line)
    (hecho : ∀ run ∈ runs, ∀ s ∈ run.operands, echo s = s ++ ['\n']) :
    List.Forall₂ Run.Shows (runs.reverse.take max)
        (parse_history ext (before ++ runs.flatMap (Run.text echo)) max) ∧
      ∀ run ∈ runs, run.date ≠ [] → Str.trim run.date = run.date → Str.trim run.heading = run.heading := by
  obtain ⟨said, hsaid, hblocks⟩ := history_blocks_runs hecho
  refine ⟨?_, fun run _ => trim_heading run⟩
  rw [parse_history, history_of_before hend hplain, hblocks, List.nil_append, List.forall₂_map_right_iff]
  have hlast := List.forall₂_take max (List.rel_reverse hsaid)
  exact hlast.imp fun run block htells => Run.shows_of_tells ext htells

def giro_pagina : Run where
  date := "2026-09-25 21:17:00".toList
  lines := ["result: 7".toList, "      installed on the phone".toList]
  outcome := .page true
  one_line := by decide
  no_end := by decide
  no_heading := by decide

def giro_cron : Run where
  date := "2026-09-21 19:14:54".toList
  lines := ["esito: 0".toList, "Error: \"No route to host\"".toList, []]
  outcome := .cron 1
  one_line := by decide
  no_end := by decide
  no_heading := by decide

theorem parse_history_runs_due :
    List.Forall₂ Run.Shows ([giro_cron, giro_pagina].reverse.take 5)
        (parse_history sample ("righe senza intestazione\n".toList ++
          [giro_cron, giro_pagina].flatMap (Run.text (· ++ ['\n']))) 5) ∧
      ∀ run ∈ [giro_cron, giro_pagina], run.date ≠ [] → Str.trim run.date = run.date →
        Str.trim run.heading = run.heading :=
  parse_history_runs sample (· ++ ['\n']) _ _ 5 (.inr (by decide)) (by decide) fun _ _ _ _ => rfl

end Reading

end AltKeeper.Web
