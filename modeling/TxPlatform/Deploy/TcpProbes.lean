import TxPlatform.Deploy.Probes
import TxPlatform.Lib.Conditional
import TxPlatform.Lib.Dict
import TxPlatform.Python.Lines

/-! # TCP probes (probes.py:22-113)

A probe pod tries each target with `nc` and prints a line about it. The reader takes every line of this shape
for a report and everything else for noise, so its results are right as long as `nc` itself prints neither a
report nor an open line in front of one (`Quiet`).
-/

namespace TxPlatform

namespace Probes

open Shell

/-! ## The script and its reader -/

structure Target where
  host : List Char
  port : Int

/-- The host can be written without quotes. -/
def Target.Plain (target : Target) : Prop := target.host ≠ [] ∧ ∀ c ∈ target.host, isPlain c = true

/-- `str(target)`. -/
def Target.text (target : Target) : List Char := target.host ++ ':' :: (toString target.port).toList

def okLine (target : Target) : List Char := "PROBE OK ".toList ++ target.text
def blockedLine (target : Target) : List Char := "PROBE BLOCKED ".toList ++ target.text

def targetLine (connectTimeout : Int) (target : Target) : List Char :=
  "if nc -z -w ".toList ++ (toString connectTimeout).toList ++ " ".toList ++ target.host ++ " ".toList ++
    (toString target.port).toList ++ "; then echo \"".toList ++ okLine target ++ "\"; else echo \"".toList ++
    blockedLine target ++ "\"; fi".toList

def buildProbeScript (targets : List Target) (connectTimeout : Int) : List Char :=
  ['\n'].intercalate (targets.map (targetLine connectTimeout))

/-- What a line reports about a target. -/
def reportOf (line : List Char) : Option (List Char × Bool) :=
  match Python.split (Python.trim line) with
  | [probe, verdict, target] =>
    if probe = "PROBE".toList ∧ (verdict = "OK".toList ∨ verdict = "BLOCKED".toList) then some (target, verdict = "OK".toList)
    else none
  | _ => none

def addLine (results : Dict (List Char) Bool) (line : List Char) : Dict (List Char) Bool :=
  match reportOf line with
  | some (target, reached) => results.set target reached
  | none => results

def parseProbeOutput (output : List Char) : Dict (List Char) Bool := (Python.splitlines output).foldl addLine ∅

/-- `run_tcp_probe` with the logs of the pod; nothing is the `RuntimeError` about targets without a report. -/
def runTcpProbe (targets : List Target) (logs : List Char) : Option (Dict (List Char) Bool) :=
  let results := parseProbeOutput logs
  if targets.all fun target => (results.get target.text).isSome then some results else none

/-! ## Probes -/

/-- An `nc` that prints whole lines, and none that looks like a report. -/
structure Quiet (attempt : Outcome) : Prop where
  wholeLines : attempt.output = [] ∨ ∃ front, attempt.output = front ++ ['\n']
  noReport : ∀ line ∈ Python.splitlines attempt.output, reportOf line = none

def reportLine (target : Target) (reached : Bool) : List Char := if reached then okLine target else blockedLine target

/-- What the log says about the targets from an index on. -/
def tcpLog (attempts : Nat → Outcome) : Nat → List Target → List Char
  | _, [] => []
  | index, target :: targets =>
    (attempts index).output ++ (reportLine target ((attempts index).status = 0) ++ '\n' :: tcpLog attempts (index + 1) targets)

/-- What the reader should have found then. -/
def resultsFrom (attempts : Nat → Outcome) : Nat → List Target → Dict (List Char) Bool → Dict (List Char) Bool
  | _, [], results => results
  | index, target :: targets, results =>
    resultsFrom attempts (index + 1) targets (results.set target.text ((attempts index).status = 0))

/-! ## What the script prints -/

def Target.conditional (connectTimeout : Int) (target : Target) : Conditional where
  condition := [.plain "nc".toList, .plain "-z".toList, .plain "-w".toList, .plain (toString connectTimeout).toList,
    .plain target.host, .plain (toString target.port).toList]
  yes := [.plain "echo".toList, .quoted (okLine target)]
  no := [.plain "echo".toList, .quoted (blockedLine target)]

theorem lineText_conditional (connectTimeout : Int) (target : Target) :
    lineText (target.conditional connectTimeout).line = targetLine connectTimeout target := by
  have hif : "if nc -z -w ".toList = "if".toList ++ ' ' :: ("nc".toList ++ ' ' :: ("-z".toList ++ ' ' :: ("-w".toList ++ [' ']))) := by
    decide
  have hblank : " ".toList = [' '] := by decide
  have hthen : "; then echo \"".toList = ';' :: ' ' :: ("then".toList ++ ' ' :: ("echo".toList ++ [' ', '"'])) := by decide
  have helse : "\"; else echo \"".toList = '"' :: ';' :: ' ' :: ("else".toList ++ ' ' :: ("echo".toList ++ [' ', '"'])) := by decide
  have hfi : "\"; fi".toList = '"' :: ';' :: ' ' :: "fi".toList := by decide
  unfold targetLine
  rw [hif, hblank, hthen, helse, hfi]
  simp only [lineText, commandText, Conditional.line, Target.conditional, Argument.text, List.map_cons, List.map_nil,
    List.intercalate_cons_cons, List.intercalate_singleton, List.append_assoc, List.cons_append, List.nil_append]

theorem isPlain_text {target : Target} (h : target.Plain) : ∀ c ∈ target.text, isPlain c = true := by
  intro c hc
  obtain hc | hc := List.mem_append.1 hc
  · exact h.2 c hc
  · obtain rfl | hc := List.mem_cons.1 hc
    · decide
    · exact (isPlain_timeout target.port).2 c hc

theorem isInert_line {word : List Char} (h : word.all isInert = true) {target : Target} (hplain : target.Plain) :
    ∀ c ∈ word ++ target.text, isInert c = true := by
  intro c hc
  obtain hc | hc := List.mem_append.1 hc
  · exact List.all_eq_true.1 h c hc
  · exact isInert_of_isPlain (isPlain_text hplain c hc)

theorem quotable_of_isInert {text : List Char} (h : ∀ c ∈ text, isInert c = true) : quotable text = true := by
  have hquotable := quotable_append h (show quotable [] = true from rfl)
  rwa [List.append_nil] at hquotable

theorem valid_conditional (connectTimeout : Int) {target : Target} (h : target.Plain) :
    (target.conditional connectTimeout).Valid := by
  have hplain : ∀ text : String, text.toList ≠ [] ∧ text.toList.all isPlain = true → Argument.Valid (.plain text.toList) :=
    fun text htext => ⟨htext.1, List.all_eq_true.1 htext.2⟩
  have hok : Argument.Valid (.quoted (okLine target)) := quotable_of_isInert (isInert_line (by decide) h)
  have hblocked : Argument.Valid (.quoted (blockedLine target)) := quotable_of_isInert (isInert_line (by decide) h)
  have htimeout : Argument.Valid (.plain (toString connectTimeout).toList) := isPlain_timeout connectTimeout
  have hport : Argument.Valid (.plain (toString target.port).toList) := isPlain_timeout target.port
  have hhost : Argument.Valid (.plain target.host) := h
  have hecho := hplain "echo" (by decide)
  have hnc := hplain "nc" (by decide)
  have hz := hplain "-z" (by decide)
  have hw := hplain "-w" (by decide)
  have hkeywords : (Argument.plain "nc".toList).word ∉ keywords ∧ (Argument.plain "echo".toList).word ∉ keywords := by decide
  simp only [Conditional.Valid, Target.conditional, ValidCommand, List.mem_cons, List.not_mem_nil, or_false, forall_eq_or_imp,
    forall_eq, ne_eq, reduceCtorEq, not_false_eq_true, true_and, List.head?_cons, Option.mem_def, Option.some.injEq, forall_eq']
  exact ⟨⟨⟨hnc, hz, hw, htimeout, hhost, hport⟩, hkeywords.1⟩, ⟨⟨hecho, hok⟩, hkeywords.2⟩, ⟨hecho, hblocked⟩, hkeywords.2⟩

section Run
variable (values : List Char → List Char) (attempts : Nat → Outcome) (connectTimeout : Int)

theorem execute_conditional {target : Target} (h : target.Plain) (state : State) :
    (target.conditional connectTimeout).statement.execute ⟨values, attempts⟩ state =
      ⟨0, state.externals + 1, state.output ++ ((attempts state.externals).output ++
        (reportLine target ((attempts state.externals).status = 0) ++ ['\n']))⟩ := by
  have hnc : "nc".toList ≠ "echo".toList := by decide
  have hinert : ∀ c, isInert c = true → c ≠ '$' := by
    rintro c hc rfl
    exact absurd hc (by decide)
  have hok : '$' ∉ okLine target := fun hmem => hinert _ (isInert_line (by decide) h _ hmem) rfl
  have hblocked : '$' ∉ blockedLine target := fun hmem => hinert _ (isInert_line (by decide) h _ hmem) rfl
  simp only [Conditional.statement, Statement.execute, Target.conditional, executeAll, List.foldl_cons, List.foldl_nil,
    execute_external _ _ _ hnc]
  split
  · rename_i hreached
    rw [List.foldl_cons, List.foldl_nil, execute_echo]
    simp [expandWord_quoted, expand_of_notMem _ hok, reportLine, hreached]
  · rename_i hblock
    rw [List.foldl_cons, List.foldl_nil, execute_echo]
    simp [expandWord_quoted, expand_of_notMem _ hblocked, reportLine, hblock]

theorem execute_conditionals {targets : List Target} (h : ∀ target ∈ targets, target.Plain) (state : State) :
    ((targets.map (·.conditional connectTimeout)).map (·.statement)).foldl
        (Statement.execute ⟨values, attempts⟩) state =
      ⟨if targets = [] then state.status else 0, state.externals + targets.length,
        state.output ++ tcpLog attempts state.externals targets⟩ := by
  induction targets generalizing state with
  | nil => simp [tcpLog]
  | cons target targets ih =>
    rw [List.map_cons, List.map_cons, List.foldl_cons, execute_conditional _ _ _ (h target List.mem_cons_self),
      ih fun other hmem => h other (List.mem_cons_of_mem target hmem)]
    simp [tcpLog]
    omega

/-- The log has what each `nc` printed and the line about its target. -/
theorem runScript_probe {targets : List Target} (h : ∀ target ∈ targets, target.Plain) :
    runScript ⟨values, attempts⟩ (buildProbeScript targets connectTimeout) = some (tcpLog attempts 0 targets) := by
  have hvalid : ∀ conditional ∈ targets.map (·.conditional connectTimeout), conditional.Valid :=
    List.forall_mem_map.2 fun target hmem => valid_conditional connectTimeout (h target hmem)
  have hscript : buildProbeScript targets connectTimeout =
      scriptText ((targets.map (·.conditional connectTimeout)).map (·.line)) := by
    rw [buildProbeScript, scriptText, List.map_map, List.map_map]
    exact congrArg _ (List.map_congr_left fun target _ => (lineText_conditional connectTimeout target).symm)
  rw [hscript, runScript_conditionals hvalid, execute_conditionals _ _ _ h]
  rfl

end Run

/-! ## What the reader finds -/

theorem isSpace_of_isPlain {c : Char} (h : isPlain c = true) : Python.isSpace c = false := by
  have hother : ("-_./:,+@%".toList.all fun c => !Python.isSpace c) = true := by decide
  obtain h | h := Bool.or_eq_true_iff.1 h
  · exact Python.isSpace_of_isAlphanum h
  · simpa using List.all_eq_true.1 hother c (of_decide_eq_true h)

/-- A line about a target is read as such. -/
theorem reportOf_reportLine {target : Target} (h : target.Plain) (reached : Bool) :
    reportOf (reportLine target reached) = some (target.text, reached) := by
  have htext : target.text ≠ [] ∧ ∀ c ∈ target.text, Python.isSpace c = false :=
    ⟨by simp [Target.text], fun c hc => isSpace_of_isPlain (isPlain_text h c hc)⟩
  have hsplit : ∀ verdict ∈ ["OK".toList, "BLOCKED".toList],
      Python.split ([' '].intercalate ["PROBE".toList, verdict, target.text]) = ["PROBE".toList, verdict, target.text] := by
    intro verdict hverdict
    have hwords : ∀ word ∈ ["PROBE".toList, "OK".toList, "BLOCKED".toList],
        word ≠ [] ∧ word.all fun c => !Python.isSpace c := by decide
    have hword : ∀ word ∈ ["PROBE".toList, "OK".toList, "BLOCKED".toList], word ≠ [] ∧ ∀ c ∈ word, Python.isSpace c = false :=
      fun word hmem => ⟨(hwords word hmem).1, by simpa using (hwords word hmem).2⟩
    refine Python.split_intercalate fun word hmem => ?_
    obtain rfl | rfl | rfl : word = "PROBE".toList ∨ word = verdict ∨ word = target.text := by simpa using hmem
    · exact hword _ (by decide)
    · exact hword _ (List.mem_cons_of_mem _ hverdict)
    · exact htext
  have hok : "PROBE OK ".toList = "PROBE".toList ++ ' ' :: ("OK".toList ++ [' ']) := by decide
  have hblocked : "PROBE BLOCKED ".toList = "PROBE".toList ++ ' ' :: ("BLOCKED".toList ++ [' ']) := by decide
  have hline : reportLine target reached =
      [' '].intercalate ["PROBE".toList, if reached then "OK".toList else "BLOCKED".toList, target.text] := by
    unfold reportLine okLine blockedLine
    rw [hok, hblocked]
    cases reached <;> simp [List.intercalate_cons_cons]
  have hverdict : (if reached then "OK".toList else "BLOCKED".toList) ∈ ["OK".toList, "BLOCKED".toList] := by
    cases reached <;> decide
  rw [reportOf, Python.split_trim, hline, hsplit _ hverdict]
  cases reached <;> rfl

theorem addLine_reportLine (results : Dict (List Char) Bool) {target : Target} (h : target.Plain) (reached : Bool) :
    addLine results (reportLine target reached) = results.set target.text reached := by
  rw [addLine, reportOf_reportLine h]

theorem isLineBreak_reportLine {target : Target} (h : target.Plain) (reached : Bool) :
    ∀ c ∈ reportLine target reached, Python.isLineBreak c = false := by
  have hword : ∀ word ∈ ["PROBE OK ".toList, "PROBE BLOCKED ".toList], ∀ c ∈ word, Python.isLineBreak c = false := by
    have key : ∀ word ∈ ["PROBE OK ".toList, "PROBE BLOCKED ".toList], (word.all fun c => !Python.isLineBreak c) = true := by decide
    exact fun word hmem => by simpa using key word hmem
  have htext : ∀ c ∈ target.text, Python.isLineBreak c = false := fun c hc =>
    Python.isLineBreak_of_isSpace (isSpace_of_isPlain (isPlain_text h c hc))
  unfold reportLine okLine blockedLine
  cases reached
  · exact List.forall_mem_append.2 ⟨hword _ (by simp), htext⟩
  · exact List.forall_mem_append.2 ⟨hword _ (by simp), htext⟩

/-- Noise is not read. -/
theorem foldl_addLine_noise {lines : List (List Char)} (h : ∀ line ∈ lines, reportOf line = none)
    (results : Dict (List Char) Bool) :
    lines.foldl addLine results = results := by
  induction lines with
  | nil => rfl
  | cons line lines ih =>
    rw [List.foldl_cons, addLine, h line List.mem_cons_self]
    exact ih fun other hmem => h other (List.mem_cons_of_mem line hmem)

/-- The lines of what an attempt prints come before everything that follows. -/
theorem splitlines_output {attempt : Outcome} (h : Quiet attempt) (text : List Char) :
    Python.splitlines (attempt.output ++ text) = Python.splitlines attempt.output ++ Python.splitlines text := by
  obtain hnothing | ⟨front, hfront⟩ := h.wholeLines
  · rw [hnothing, List.nil_append]
    rfl
  · rw [hfront, List.append_assoc, List.singleton_append, Python.splitlines_append]

theorem foldl_tcpLog {attempts : Nat → Outcome} {targets : List Target} {index : Nat}
    (h : ∀ target ∈ targets, target.Plain)
    (hquiet : ∀ n, index ≤ n → n < index + targets.length → Quiet (attempts n)) (results : Dict (List Char) Bool) :
    (Python.splitlines (tcpLog attempts index targets)).foldl addLine results = resultsFrom attempts index targets results := by
  induction targets generalizing index results with
  | nil => rfl
  | cons target targets ih =>
    obtain ⟨hplain, hrest⟩ := List.forall_mem_cons.1 h
    have hfirst : Quiet (attempts index) := hquiet index (Nat.le_refl _) (by simp)
    have hlater : ∀ n, index + 1 ≤ n → n < index + 1 + targets.length → Quiet (attempts n) := fun n hle hlt =>
      hquiet n (by omega) (by simp; omega)
    rw [tcpLog, splitlines_output hfirst, Python.splitlines_append,
      Python.splitlines_line (isLineBreak_reportLine hplain _), List.foldl_append, foldl_addLine_noise hfirst.noReport,
      List.foldl_append, List.foldl_cons, List.foldl_nil, addLine_reportLine _ hplain, ih hrest hlater, resultsFrom]

/-! ## What is reported -/

theorem get_resultsFrom_of_notMem (attempts : Nat → Outcome) {targets : List Target} {key : List Char}
    (h : ∀ target ∈ targets, target.text ≠ key) (index : Nat) (results : Dict (List Char) Bool) :
    (resultsFrom attempts index targets results).get key = results.get key := by
  induction targets generalizing index results with
  | nil => rfl
  | cons target targets ih =>
    have hne : key ≠ target.text := fun heq => h target List.mem_cons_self heq.symm
    rw [resultsFrom, ih fun other hmem => h other (List.mem_cons_of_mem target hmem), Dict.get_set, if_neg hne]

theorem get_resultsFrom (attempts : Nat → Outcome) {targets before later : List Target} {target : Target}
    (htargets : targets = before ++ target :: later) (h : ∀ other ∈ later, other.text ≠ target.text) (index : Nat)
    (results : Dict (List Char) Bool) :
    (resultsFrom attempts index targets results).get target.text =
      some (decide ((attempts (index + before.length)).status = 0)) := by
  subst htargets
  induction before generalizing index results with
  | nil => rw [List.nil_append, resultsFrom, get_resultsFrom_of_notMem attempts h, Dict.get_set, if_pos rfl]; rfl
  | cons first before ih =>
    have hindex : index + 1 + before.length = index + (before.length + 1) := by omega
    rw [List.cons_append, resultsFrom, ih, List.length_cons, hindex]

/-- A report stays. -/
theorem isSome_resultsFrom_of_isSome (attempts : Nat → Outcome) {key : List Char} (targets : List Target) (index : Nat)
    {results : Dict (List Char) Bool} (h : (results.get key).isSome = true) :
    ((resultsFrom attempts index targets results).get key).isSome = true := by
  induction targets generalizing index results with
  | nil => exact h
  | cons target targets ih =>
    refine ih (index + 1) ?_
    rw [Dict.get_set]
    split
    · rfl
    · exact h

theorem isSome_resultsFrom (attempts : Nat → Outcome) {targets : List Target} {target : Target}
    (h : target ∈ targets) (index : Nat)
    (results : Dict (List Char) Bool) : ((resultsFrom attempts index targets results).get target.text).isSome = true := by
  induction targets generalizing index results with
  | nil => cases h
  | cons first targets ih =>
    obtain rfl | h := List.mem_cons.1 h
    · refine isSome_resultsFrom_of_isSome attempts targets (index + 1) ?_
      rw [Dict.get_set, if_pos rfl]
      rfl
    · exact ih h _ _

/-- **A probe reports what it saw**: over hosts that need no quotes, with an `nc` that prints whole lines and
nothing that looks like a report, a run never fails for a missing report, it reports no other targets, and for
each target it says whether the last `nc` for it succeeded. -/
theorem runTcpProbe_reports (values : List Char → List Char) {attempts : Nat → Outcome} {targets : List Target}
    (connectTimeout : Int) (hplain : ∀ target ∈ targets, target.Plain) (hquiet : ∀ n < targets.length, Quiet (attempts n)) :
    ∃ logs results, runScript ⟨values, attempts⟩ (buildProbeScript targets connectTimeout) = some logs ∧
      runTcpProbe targets logs = some results ∧
      (∀ before target later, targets = before ++ target :: later → (∀ other ∈ later, other.text ≠ target.text) →
        results.get target.text = some (decide ((attempts before.length).status = 0))) ∧
      ∀ key, (results.get key).isSome → ∃ target ∈ targets, target.text = key := by
  have hresults : parseProbeOutput (tcpLog attempts 0 targets) = resultsFrom attempts 0 targets ∅ :=
    foldl_tcpLog hplain (fun n _ hlt => hquiet n (by simpa using hlt)) ∅
  have hall : (targets.all fun target => ((resultsFrom attempts 0 targets ∅).get target.text).isSome) = true :=
    List.all_eq_true.2 fun target hmem => isSome_resultsFrom attempts hmem 0 ∅
  refine ⟨_, resultsFrom attempts 0 targets ∅, runScript_probe values attempts connectTimeout hplain, ?_, ?_, ?_⟩
  · rw [runTcpProbe, hresults]
    exact if_pos hall
  · intro before target later htargets hlater
    have hget := get_resultsFrom attempts htargets hlater 0 ∅
    rwa [Nat.zero_add] at hget
  · intro key hsome
    by_contra hnone
    rw [get_resultsFrom_of_notMem attempts fun target hmem heq => hnone ⟨target, hmem, heq⟩, Dict.get_empty] at hsome
    cases hsome

def keycloakPort : Target := ⟨"keycloak".toList, 8080⟩
def kongPort : Target := ⟨"kong".toList, 8001⟩

/-- The first is open; for the second `nc` complains. -/
def openAndBlocked : Nat → Outcome
  | 0 => ⟨0, []⟩
  | _ => ⟨1, "nc: timed out\n".toList⟩

theorem quiet_openAndBlocked : ∀ n, Quiet (openAndBlocked n)
  | 0 => ⟨.inl rfl, by decide⟩
  | _ + 1 =>
    have hnoReport : (Python.splitlines "nc: timed out\n".toList).all (reportOf · = none) = true := by decide +kernel
    have hline : "nc: timed out\n".toList = "nc: timed out".toList ++ ['\n'] := by decide
    { wholeLines := .inr ⟨_, hline⟩
      noReport := fun line hline => of_decide_eq_true (List.all_eq_true.1 hnoReport line hline) }

theorem runTcpProbe_reports_openAndBlocked :
    ∃ logs results, runScript ⟨fun _ => [], openAndBlocked⟩ (buildProbeScript [keycloakPort, kongPort] 3) = some logs ∧
      runTcpProbe [keycloakPort, kongPort] logs = some results ∧
      results.get "keycloak:8080".toList = some true ∧ results.get "kong:8001".toList = some false := by
  have hplain : ∀ target ∈ [keycloakPort, kongPort], target.Plain := by
    have key : ∀ target ∈ [keycloakPort, kongPort], target.host ≠ [] ∧ target.host.all isPlain = true := by decide
    exact fun target hmem => ⟨(key target hmem).1, List.all_eq_true.1 (key target hmem).2⟩
  obtain ⟨logs, results, hlogs, hresults, hreached, -⟩ :=
    runTcpProbe_reports (fun _ => []) 3 hplain fun n _ => quiet_openAndBlocked n
  exact ⟨logs, results, hlogs, hresults, hreached [] keycloakPort [kongPort] rfl (by decide),
    hreached [keycloakPort] kongPort [] rfl (by simp)⟩

end Probes

end TxPlatform
