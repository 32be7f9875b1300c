import TxPlatform.Scenarios.Records

/-! # Recovery after a crash in the middle of a write (records.py:57-77, journal.py:23-36,
engine.py:63-83)

A run saves its record when it starts and when it ends; `write_text` empties the file first and
writes the new text from the beginning. In between it appends one journal line per change. The
process may die after any character. The next recovery reads every `record.json` and, of the runs
that were not restored, the journal; `json.loads` raises on a text that was cut off, and one such
file ends the recovery of all runs. `recovers_iff` says when that does not happen.
-/

namespace TxPlatform

namespace CrashedWrites

/-! ## The files of a run -/

structure RunFiles where
  record : Option (List Char) := none
  journal : Option (List Char) := none

/-- What the process of a run does, one character at a time. `announced` and `restored` leave the
files alone: they tell how far the process came. -/
inductive Op where
  | openRecord
  | writeRecord (c : Char)
  | openJournal
  | writeJournal (c : Char)
  | announced (entry : Entry)
  | restored (step : RestoreStep)

def Op.apply (files : RunFiles) : Op → RunFiles
  | openRecord => { files with record := some [] }
  | writeRecord c => { files with record := files.record.map (· ++ [c]) }
  | openJournal => { files with journal := some (files.journal.getD []) }
  | writeJournal c => { files with journal := files.journal.map (· ++ [c]) }
  | announced _ => files
  | restored _ => files

/-- `RunRecord.save`. -/
def save (record : RunRecord) : List Op := .openRecord :: record.text.map .writeRecord

/-- `Journal.record`. -/
def record (entry : Entry) : List Op :=
  .openJournal :: ((entry.line ++ ['\n']).map .writeJournal ++ [.announced entry])

/-- A run that is not cut short (engine.py:159-204): the changes it announces, its own restore, and
the two records it saves. -/
structure Run where
  first : SavedRecord
  entries : List Entry
  final : SavedRecord
  first_restored : first.restored = false
  final_restored : final.restored = true

def Run.ops (run : Run) : List Op :=
  save run.first.toRunRecord ++ (run.entries.flatMap record
    ++ ((restorePlan run.entries).map .restored ++ save run.final.toRunRecord))

def filesAfter (files : RunFiles) (ops : List Op) : RunFiles := ops.foldl Op.apply files

def announcedIn (ops : List Op) : List Entry := ops.filterMap fun
  | .announced entry => some entry
  | _ => none

def ownStepsIn (ops : List Op) : List RestoreStep := ops.filterMap fun
  | .restored step => some step
  | _ => none

/-- A run whose process died after so many steps. -/
structure Death where
  run : Run
  moment : Nat

namespace Death

def ops (death : Death) : List Op := death.run.ops.take death.moment

def files (death : Death) : RunFiles := filesAfter {} death.ops

/-- The changes whose journal line was written completely. -/
def announced (death : Death) : List Entry := announcedIn death.ops

/-- The restore steps its own process executed. -/
def ownSteps (death : Death) : List RestoreStep := ownStepsIn death.ops

end Death

/-! ## The next recovery (engine.py:63-83) -/

/-- `records.unrestored_runs`, over the run directories. -/
def unrestoredRuns : List RunFiles → Except LoadError (List (RunRecord × RunFiles))
  | [] => .ok []
  | files :: runs =>
    match files.record with
    | none => unrestoredRuns runs
    | some text =>
      match RunRecord.load text, unrestoredRuns runs with
      | .error error, _ => .error error
      | .ok _, .error error => .error error
      | .ok record, .ok found => .ok (if record.restored then found else (record, files) :: found)

structure Recovery where
  steps : List RestoreStep := []
  saved : List RunRecord := []

/-- `restore`, and the record it saves. -/
def restore (record : RunRecord) (files : RunFiles) : Except LoadError (List RestoreStep × RunRecord) :=
  match Journal.entries files.journal with
  | .error error => .error error
  | .ok entries => .ok (restorePlan entries, record.marked)

def restoreAll : List (RunRecord × RunFiles) → Except LoadError Recovery
  | [] => .ok {}
  | (record, files) :: runs =>
    match restore record files, restoreAll runs with
    | .error error, _ => .error error
    | .ok _, .error error => .error error
    | .ok (steps, saved), .ok recovery =>
      .ok { steps := steps ++ recovery.steps, saved := saved :: recovery.saved }

def restoreInterruptedRuns (runs : List RunFiles) : Except LoadError Recovery :=
  match unrestoredRuns runs with
  | .error error => .error error
  | .ok found => restoreAll found

/-- The recovery raises on none of these files, and every step for a completely announced change was
executed by the run itself or is executed now. -/
def Recovers (deaths : List Death) : Prop :=
  ∃ recovery, restoreInterruptedRuns (deaths.map Death.files) = .ok recovery ∧
    ∀ death ∈ deaths, ∀ step ∈ restorePlan death.announced, step ∈ death.ownSteps ∨ step ∈ recovery.steps

/-- No file ends in the middle of what was being written: a record is missing or whole, and so is
every line of the journal, be it without its line break. -/
structure Whole (files : RunFiles) : Prop where
  record : ∀ text, files.record = some text → ∃ saved : SavedRecord, text = saved.text
  journal : ∀ text, files.journal = some text →
    ∃ entries, text = Journal.text entries ∨ text ++ ['\n'] = Journal.text entries

/-! ## Where a run can be when its process dies -/

theorem take_cons_map {α β : Type} (x : β) (f : α → β) (xs : List α) (n : Nat) :
    (x :: xs.map f).take n = [] ∨ ∃ torn rest, xs = torn ++ rest ∧
      (x :: xs.map f).take n = x :: torn.map f := by
  cases n with
  | zero => exact .inl rfl
  | succ n =>
    exact .inr ⟨xs.take n, xs.drop n,
      (List.take_append_drop n xs).symm, by rw [List.take_succ_cons, List.map_take]⟩

theorem take_append_cases {α : Type} (xs ys : List α) (n : Nat) :
    (xs ++ ys).take n = xs.take n ∨ ∃ m, (xs ++ ys).take n = xs ++ ys.take m := by
  rw [List.take_append]
  by_cases h : n ≤ xs.length
  · left
    rw [Nat.sub_eq_zero_of_le h, List.take_zero, List.append_nil]
  · right
    exact ⟨n - xs.length, by rw [List.take_of_length_le (by omega)]⟩

/-- The lines that were announced, and the line that was being written. -/
theorem take_lines (entries : List Entry) (n : Nat) :
    ∃ done todo, entries = done ++ todo ∧
      ((entries.flatMap record).take n = done.flatMap record ∨
      ∃ entry torn rest, entry ∈ todo ∧ entry.line ++ ['\n'] = torn ++ rest ∧
        (entries.flatMap record).take n = done.flatMap record ++ .openJournal ::
          torn.map .writeJournal) := by
  induction entries generalizing n with
  | nil => exact ⟨[], [], rfl, .inl (by simp)⟩
  | cons entry entries ih =>
    rw [List.flatMap_cons]
    rcases take_append_cases (record entry) (entries.flatMap record) n with h | ⟨m, h⟩
    · rw [h, record, ← List.cons_append]
      rcases take_append_cases (Op.openJournal :: (entry.line ++ ['\n']).map .writeJournal)
        [.announced entry] n with
        h | ⟨m, h⟩
      · rw [h]
        rcases take_cons_map Op.openJournal Op.writeJournal (entry.line ++ ['\n']) n with h |
          ⟨torn, rest, hsplit, h⟩
        · exact ⟨[], entry :: entries, rfl, .inl h⟩
        · exact ⟨[], entry :: entries, rfl, .inr ⟨entry, torn, rest, List.mem_cons_self, hsplit, h⟩⟩
      · rw [h]
        cases m with
        | zero =>
          exact ⟨[], entry :: entries, rfl,
            .inr ⟨entry, _, [], List.mem_cons_self, (List.append_nil _).symm, List.append_nil _⟩⟩
        | succ m => exact ⟨[entry], entries, rfl, .inl (by simp [record])⟩
    · obtain ⟨done, todo, hsplit, hcases⟩ := ih m
      refine ⟨entry :: done, todo, by rw [hsplit]; rfl, ?_⟩
      rw [h]
      rcases hcases with hdone | ⟨e, torn, rest, htodo, hline, htake⟩
      · exact .inl (by rw [hdone]; rfl)
      · exact .inr ⟨e, torn, rest, htodo, hline, by rw [htake, List.flatMap_cons, List.append_assoc]⟩

/-! ## What is on disk there -/

theorem filesAfter_append (files : RunFiles) (ops more : List Op) :
    filesAfter files (ops ++ more) = filesAfter (filesAfter files ops) more := List.foldl_append

theorem filesAfter_writeRecord (files : RunFiles) (text : List Char) :
    filesAfter files (text.map .writeRecord) = { files with record := files.record.map (· ++ text) } := by
  induction text generalizing files with
  | nil => cases files with | mk record journal => cases record <;> simp [filesAfter]
  | cons c text ih =>
    rw [List.map_cons, filesAfter, List.foldl_cons, ← filesAfter, ih]
    cases files with | mk record journal => cases record <;> simp [Op.apply]

theorem filesAfter_writeJournal (files : RunFiles) (text : List Char) :
    filesAfter files (text.map .writeJournal) =
      { files with journal := files.journal.map (· ++ text) } := by
  induction text generalizing files with
  | nil => cases files with | mk record journal => cases journal <;> simp [filesAfter]
  | cons c text ih =>
    rw [List.map_cons, filesAfter, List.foldl_cons, ← filesAfter, ih]
    cases files with | mk record journal => cases journal <;> simp [Op.apply]

theorem filesAfter_openRecord (files : RunFiles) (torn : List Char) :
    filesAfter files (.openRecord :: torn.map .writeRecord) = { files with record := some torn } := by
  rw [filesAfter, List.foldl_cons, ← filesAfter, filesAfter_writeRecord]
  rfl

theorem filesAfter_openJournal (files : RunFiles) (torn : List Char) :
    filesAfter files (.openJournal :: torn.map .writeJournal) =
      { files with journal := some (files.journal.getD [] ++ torn) } := by
  rw [filesAfter, List.foldl_cons, ← filesAfter, filesAfter_writeJournal]
  rfl

theorem filesAfter_restored (files : RunFiles) (steps : List RestoreStep) :
    filesAfter files (steps.map .restored) = files := by
  induction steps with
  | nil => rfl
  | cons step steps ih => exact ih

/-- Recorded lines leave the record alone; a journal without lines may not exist. -/
theorem filesAfter_lines (files : RunFiles) (entries : List Entry) :
    (filesAfter files (entries.flatMap record)).record = files.record ∧
      (filesAfter files (entries.flatMap record)).journal.getD [] = files.journal.getD
        [] ++ Journal.text entries := by
  induction entries generalizing files with
  | nil => exact ⟨rfl, (List.append_nil _).symm⟩
  | cons entry entries ih =>
    have hline : filesAfter files (record entry) =
        { files with journal := some (files.journal.getD [] ++ (entry.line ++ ['\n'])) } := by
      rw [record, ← List.cons_append, filesAfter_append, filesAfter_openJournal]
      rfl
    rw [List.flatMap_cons, filesAfter_append, hline]
    obtain ⟨hrecord, hjournal⟩ :=
      ih { files with journal := some (files.journal.getD [] ++ (entry.line ++ ['\n'])) }
    refine ⟨hrecord, hjournal.trans ?_⟩
    simp [Journal.text]

/-! ### How far the process came -/

section Progress
variable (entries : List Entry) (text : List Char) (steps : List RestoreStep)

theorem announcedIn_append (ops more : List Op) :
    announcedIn (ops ++ more) = announcedIn ops ++ announcedIn more :=
  List.filterMap_append

theorem ownStepsIn_append (ops more : List Op) :
    ownStepsIn (ops ++ more) = ownStepsIn ops ++ ownStepsIn more :=
  List.filterMap_append

theorem announcedIn_writeRecord : announcedIn (.openRecord :: text.map .writeRecord) = [] := by
  simp [announcedIn, List.filterMap_map]

theorem announcedIn_writeJournal : announcedIn (.openJournal :: text.map .writeJournal) = [] := by
  simp [announcedIn, List.filterMap_map]

theorem announcedIn_restored : announcedIn (steps.map .restored) = [] := by
  simp [announcedIn, List.filterMap_map]

theorem announcedIn_lines : announcedIn (entries.flatMap record) = entries := by
  induction entries with
  | nil => rfl
  | cons entry entries ih =>
    have hline : announcedIn (record entry) = [entry] := by
      rw [record, ← List.cons_append, announcedIn_append, announcedIn_writeJournal]
      rfl
    rw [List.flatMap_cons, announcedIn_append, hline, ih]
    rfl

theorem ownStepsIn_writeRecord : ownStepsIn (.openRecord :: text.map .writeRecord) = [] := by
  simp [ownStepsIn, List.filterMap_map]

theorem ownStepsIn_lines : ownStepsIn (entries.flatMap record) = [] := by
  simp [ownStepsIn, List.filterMap_flatMap, record, List.filterMap_map]

theorem ownStepsIn_restored : ownStepsIn (steps.map .restored) = steps := by
  simp [ownStepsIn, List.filterMap_map]

end Progress

/-! ### The five kinds of death -/

/-- What the operations of a run that was cut short leave behind. -/
inductive Left (run : Run) (ops : List Op) : Prop
  | nothing (files : filesAfter {} ops = {}) (announced : announcedIn ops = [])
  | tornRecord (saved : SavedRecord) (torn rest : List Char) (split : saved.text = torn ++ rest)
      (short : rest ≠ [])
      (record : (filesAfter {} ops).record = some torn)
  | unrestored (extra : List Entry) (record : (filesAfter {} ops).record = some run.first.text)
      (journal : (filesAfter {} ops).journal.getD [] = Journal.text (announcedIn ops ++ extra) ∨
        (filesAfter {} ops).journal.getD [] ++ ['\n'] = Journal.text (announcedIn ops ++ extra))
  | tornLine (done : List Entry) (entry : Entry) (torn rest : List Char)
      (split : entry.line = torn ++ rest)
      (started : torn ≠ []) (short : rest ≠ [])
        (record : (filesAfter {} ops).record = some run.first.text)
      (journal : (filesAfter {} ops).journal = some (Journal.text done ++ torn))
  | restored (record : (filesAfter {} ops).record = some run.final.text)
      (journal : (filesAfter {} ops).journal.getD [] = Journal.text (announcedIn ops))
      (own : ownStepsIn ops = restorePlan (announcedIn ops))

theorem Journal_text_snoc (done : List Entry) (entry : Entry) :
    Journal.text (done ++ [entry]) = Journal.text done ++ entry.line ++ ['\n'] := by
  simp [Journal.text]

/-- The last line is missing, whole, or cut off. -/
theorem split_line {entry : Entry} {torn rest : List Char}
    (hsplit : entry.line ++ ['\n'] = torn ++ rest) :
    torn = [] ∨ torn = entry.line ∨ torn = entry.line ++ ['\n'] ∨
      ∃ rest', torn ≠ [] ∧ rest' ≠ [] ∧ entry.line = torn ++ rest' := by
  by_cases hnil : torn = []
  · exact .inl hnil
  rcases List.eq_nil_or_concat rest with rfl | ⟨rest', c, rfl⟩
  · rw [List.append_nil] at hsplit
    exact .inr (.inr (.inl hsplit.symm))
  · rw [List.concat_eq_append, ← List.append_assoc] at hsplit
    obtain ⟨hline, _⟩ := List.append_inj' hsplit rfl
    by_cases hrest : rest' = []
    · rw [hrest, List.append_nil] at hline
      exact .inr (.inl hline.symm)
    · exact .inr (.inr (.inr ⟨rest', hnil, hrest, hline⟩))

section Stages
variable (run : Run)

/-- The files once the first record was saved and these changes were announced. -/
theorem files_announced (done : List Entry) :
    (filesAfter {} (save run.first.toRunRecord ++ done.flatMap record)).record = some run.first.text ∧
      (filesAfter {} (save run.first.toRunRecord ++ done.flatMap record)).journal.getD
        [] = Journal.text done := by
  rw [filesAfter_append, save, filesAfter_openRecord]
  exact filesAfter_lines { record := some run.first.text } done

theorem announcedIn_announced (done : List Entry) :
    announcedIn (save run.first.toRunRecord ++ done.flatMap record) = done := by
  rw [announcedIn_append, announcedIn_lines, save, announcedIn_writeRecord, List.nil_append]

/-- While the first record is written. -/
theorem left_first {torn rest : List Char} (hsplit : run.first.text = torn ++ rest) :
    Left run (.openRecord :: torn.map .writeRecord) := by
  by_cases hrest : rest = []
  · subst hrest
    rw [List.append_nil] at hsplit
    refine .unrestored [] (by rw [filesAfter_openRecord, hsplit]) (.inl ?_)
    rw [filesAfter_openRecord, announcedIn_writeRecord]
    rfl
  · exact .tornRecord run.first torn rest hsplit hrest (by rw [filesAfter_openRecord])

/-- Between two lines. -/
theorem left_between (done : List Entry) :
    Left run (save run.first.toRunRecord ++ done.flatMap record) := by
  obtain ⟨hrecord, hjournal⟩ := files_announced run done
  refine .unrestored [] hrecord (.inl ?_)
  rw [hjournal, announcedIn_announced, List.append_nil]

/-- While a line is written. -/
theorem left_line (done : List Entry) {entry : Entry} {torn rest : List Char}
    (hsplit : entry.line ++ ['\n'] = torn ++ rest) :
    Left run (save run.first.toRunRecord ++ done.flatMap record ++ .openJournal :: torn.map .writeJournal) := by
  obtain ⟨hrecord, hjournal⟩ := files_announced run done
  have hfiles : filesAfter {} (save run.first.toRunRecord ++ done.flatMap record
      ++ .openJournal :: torn.map .writeJournal) =
      { record := some run.first.text, journal := some (Journal.text done ++ torn) } := by
    rw [filesAfter_append, filesAfter_openJournal, hrecord, hjournal]
  have hannounced : announcedIn (save run.first.toRunRecord ++ done.flatMap record
      ++ .openJournal :: torn.map .writeJournal) = done := by
    rw [announcedIn_append, announcedIn_announced, announcedIn_writeJournal, List.append_nil]
  rcases split_line hsplit with rfl | rfl | rfl | ⟨rest', htorn, hrest, hline⟩
  · refine .unrestored [] (by rw [hfiles]) (.inl ?_)
    rw [hfiles, hannounced, List.append_nil, List.append_nil]
    rfl
  · refine .unrestored [entry] (by rw [hfiles]) (.inr ?_)
    rw [hfiles, hannounced, Journal_text_snoc]
    rfl
  · refine .unrestored [entry] (by rw [hfiles]) (.inl ?_)
    rw [hfiles, hannounced, Journal_text_snoc, List.append_assoc]
    rfl
  · exact .tornLine done entry torn rest' hline htorn hrest (by rw [hfiles]) (by rw [hfiles])

/-- While the run restores the platform itself. -/
theorem left_own (steps : List RestoreStep) :
    Left run (save run.first.toRunRecord ++ run.entries.flatMap record ++ steps.map .restored) := by
  obtain ⟨hrecord, hjournal⟩ := files_announced run run.entries
  refine .unrestored [] ?_ (.inl ?_)
  · rw [filesAfter_append, filesAfter_restored, hrecord]
  · rw [filesAfter_append, filesAfter_restored, hjournal, announcedIn_append, announcedIn_announced,
      announcedIn_restored, List.append_nil, List.append_nil]

/-- While the last record is written. -/
theorem left_final {torn rest : List Char} (hsplit : run.final.text = torn ++ rest) :
    Left run (save run.first.toRunRecord ++ run.entries.flatMap record ++ (restorePlan run.entries).map .restored
      ++ .openRecord :: torn.map .writeRecord) := by
  obtain ⟨_, hjournal⟩ := files_announced run run.entries
  by_cases hrest : rest = []
  · subst hrest
    rw [List.append_nil] at hsplit
    have hannounced : announcedIn (save run.first.toRunRecord ++ run.entries.flatMap record
        ++ (restorePlan run.entries).map .restored ++ .openRecord :: torn.map .writeRecord) =
          run.entries := by
      rw [announcedIn_append, announcedIn_append, announcedIn_announced, announcedIn_restored,
        announcedIn_writeRecord, List.append_nil, List.append_nil]
    have hown : ownStepsIn (save run.first.toRunRecord ++ run.entries.flatMap record
        ++ (restorePlan run.entries).map .restored ++ .openRecord :: torn.map .writeRecord) =
        restorePlan run.entries := by
      rw [ownStepsIn_append, ownStepsIn_append, ownStepsIn_append, ownStepsIn_lines, save,
        ownStepsIn_writeRecord, ownStepsIn_writeRecord, ownStepsIn_restored, List.append_nil,
        List.nil_append, List.nil_append]
    refine .restored ?_ ?_ ?_
    · rw [filesAfter_append, filesAfter_openRecord, hsplit]
    · rw [filesAfter_append, filesAfter_openRecord, filesAfter_append, filesAfter_restored, hannounced]
      exact hjournal
    · rw [hown, hannounced]
  · exact .tornRecord run.final torn rest hsplit hrest (by rw [filesAfter_append, filesAfter_openRecord])

end Stages

/-- **Whenever the process dies, it was at one of these points.** -/
theorem Death.left (death : Death) : Left death.run death.ops := by
  obtain ⟨run, moment⟩ := death
  simp only [Death.ops, Run.ops]
  rcases take_append_cases (save run.first.toRunRecord) _ moment with h | ⟨m, h⟩
  · rw [h]
    rcases take_cons_map Op.openRecord Op.writeRecord run.first.text moment with h' |
      ⟨torn, rest, hsplit, h'⟩
    · rw [save, h']
      exact .nothing rfl rfl
    · rw [save, h']
      exact left_first run hsplit
  rw [h]
  rcases take_append_cases (run.entries.flatMap record) _ m with h' | ⟨m', h'⟩
  · rw [h']
    obtain ⟨done, _, _, hdone | ⟨entry, torn, rest, _, hline, htorn⟩⟩ := take_lines run.entries m
    · rw [hdone]
      exact left_between run done
    · rw [htorn, ← List.append_assoc]
      exact left_line run done hline
  rw [h', ← List.append_assoc]
  rcases take_append_cases ((restorePlan run.entries).map Op.restored) _ m' with h'' | ⟨m'', h''⟩
  · rw [h'', ← List.map_take]
    exact left_own run _
  · rw [h'', ← List.append_assoc]
    rcases take_cons_map Op.openRecord Op.writeRecord run.final.text m'' with hfinal | ⟨torn, rest,
      hsplit, hfinal⟩
    · rw [save, save, hfinal, List.append_nil]
      exact left_own run _
    · rw [save, save, hfinal]
      exact left_final run hsplit

/-! ## What the next recovery does with it -/

/-- What the recovery does with one directory. -/
def stepsFor (files : RunFiles) : Except LoadError (List RestoreStep) :=
  match files.record with
  | none => .ok []
  | some text =>
    match RunRecord.load text with
    | .error error => .error error
    | .ok record =>
      if record.restored then .ok []
      else
        match Journal.entries files.journal with
        | .error error => .error error
        | .ok entries => .ok (restorePlan entries)

section Directories
variable {files : RunFiles} {runs : List RunFiles} {recovery : Recovery} {steps : List RestoreStep}

theorem ok_cons (hfiles : stepsFor files = .ok steps)
    (hruns : restoreInterruptedRuns runs = .ok recovery) :
    ∃ whole, restoreInterruptedRuns (files :: runs) = .ok whole ∧
      whole.steps = steps ++ recovery.steps := by
  unfold stepsFor at hfiles
  unfold restoreInterruptedRuns at hruns ⊢
  rw [unrestoredRuns]
  split at hfiles
  · cases hfiles
    exact ⟨recovery, hruns, rfl⟩
  · rename_i text htext
    split at hfiles
    · cases hfiles
    · rename_i record hload
      split at hruns
      · cases hruns
      · rename_i found hfound
        simp only [hload, hfound]
        split at hfiles
        · rename_i hrestored
          cases hfiles
          simp only [hrestored, if_true]
          exact ⟨recovery, hruns, rfl⟩
        · rename_i hrestored
          split at hfiles
          · cases hfiles
          · rename_i entries hentries
            cases hfiles
            simp only [hrestored, if_false, restoreAll, restore, hentries, hruns, Bool.false_eq_true]
            exact ⟨_, rfl, rfl⟩

theorem of_ok_cons (h : restoreInterruptedRuns (files :: runs) = .ok recovery) :
    ∃ steps rest, stepsFor files = .ok steps ∧ restoreInterruptedRuns runs = .ok rest ∧
      recovery.steps = steps ++ rest.steps := by
  unfold stepsFor
  unfold restoreInterruptedRuns at h ⊢
  rw [unrestoredRuns] at h
  split at h
  · cases h
  · rename_i found hfound
    split at hfound
    · simp only [hfound]
      exact ⟨[], recovery, rfl, h, rfl⟩
    · rename_i text htext
      split at hfound
      · cases hfound
      · cases hfound
      · rename_i record others hload hothers
        cases hfound
        simp only [hload, hothers]
        by_cases hrestored : record.restored
        · simp only [hrestored, if_true] at h ⊢
          exact ⟨[], recovery, rfl, h, rfl⟩
        · simp only [hrestored, if_false, restoreAll, restore, Bool.false_eq_true] at h ⊢
          cases hentries : Journal.entries files.journal with
          | error error => simp [hentries] at h
          | ok entries =>
            simp only [hentries] at h
            split at h
            · cases h
            · cases h
            · rename_i steps saved rest hstep hrest
              cases hstep
              cases h
              exact ⟨_, rest, rfl, hrest, rfl⟩

theorem recovery_ok_iff :
    (∃ recovery, restoreInterruptedRuns runs = .ok recovery) ↔ ∀ files ∈ runs, ∃ steps,
      stepsFor files = .ok steps := by
  induction runs with
  | nil => simp [restoreInterruptedRuns, unrestoredRuns, restoreAll]
  | cons files runs ih =>
    rw [List.forall_mem_cons, ← ih]
    constructor
    · rintro ⟨recovery, h⟩
      obtain ⟨steps, rest, hsteps, hrest, _⟩ := of_ok_cons h
      exact ⟨⟨steps, hsteps⟩, rest, hrest⟩
    · rintro ⟨⟨steps, hsteps⟩, rest, hrest⟩
      obtain ⟨whole, hwhole, _⟩ := ok_cons hsteps hrest
      exact ⟨whole, hwhole⟩

/-- The recovery executes what it owes to each directory. -/
theorem mem_recovery_steps (h : restoreInterruptedRuns runs = .ok recovery) (hmem : files ∈ runs)
    (hsteps : stepsFor files = .ok steps) : ∀ step ∈ steps, step ∈ recovery.steps := by
  induction runs generalizing recovery with
  | nil => cases hmem
  | cons first runs ih =>
    obtain ⟨firstSteps, rest, hfirst, hrest, heq⟩ := of_ok_cons h
    intro step hstep
    rw [heq]
    rcases List.mem_cons.1 hmem with rfl | hmem
    · rw [hfirst] at hsteps
      cases hsteps
      exact List.mem_append_left _ hstep
    · exact List.mem_append_right _ (ih hrest hmem step hstep)

end Directories

/-! ## When recovery survives -/

theorem entries_getD (journal : Option (List Char)) :
    Journal.entries journal = Journal.entries (some (journal.getD [])) := by
  cases journal <;> rfl

/-- A journal of whole lines is read, also when the last one lacks its line break. -/
theorem entries_of_whole {text : List Char} {entries : List Entry}
    (h : text = Journal.text entries ∨ text ++ ['\n'] = Journal.text entries) :
    Journal.entries (some text) = .ok entries := by
  rcases h with rfl | h
  · exact Journal.entries_text entries
  · rcases List.eq_nil_or_concat entries with rfl | ⟨done, entry, rfl⟩
    · exact absurd h (by simp [Journal.text])
    · rw [List.concat_eq_append] at h ⊢
      rw [Journal_text_snoc] at h
      rw [List.append_cancel_right h, Journal.entries_text_append, Journal.entries_line]
      rfl

theorem load_of_whole {files : RunFiles} (h : Whole files) {text : List Char}
    (hrecord : files.record = some text) :
    ∃ record, RunRecord.load text = .ok record := by
  obtain ⟨saved, rfl⟩ := h.record text hrecord
  exact ⟨_, RunRecord.load_text saved⟩

theorem stepsFor_of_whole {files : RunFiles} (h : Whole files) : ∃ steps, stepsFor files = .ok steps := by
  unfold stepsFor
  split
  · exact ⟨[], rfl⟩
  · rename_i text hrecord
    obtain ⟨record, hload⟩ := load_of_whole h hrecord
    simp only [hload]
    split
    · exact ⟨[], rfl⟩
    · cases hjournal : files.journal with
      | none => exact ⟨_, rfl⟩
      | some text =>
        obtain ⟨entries, hwhole⟩ := h.journal text hjournal
        simp only [entries_of_whole hwhole]
        exact ⟨_, rfl⟩

/-- The files a death left are either whole, and then nothing is forgotten, or unreadable. -/
theorem Left.whole_or_unreadable {run : Run} {ops : List Op} (h : Left run ops) :
    (Whole (filesAfter {} ops) ∧ ∃ steps, stepsFor (filesAfter {} ops) = .ok steps ∧
      ∀ step ∈ restorePlan (announcedIn ops), step ∈ ownStepsIn ops ∨ step ∈ steps) ∨
    ¬ ∃ steps, stepsFor (filesAfter {} ops) = .ok steps := by
  cases h with
  | nothing files announced =>
    rw [files, announced]
    exact .inl ⟨⟨fun _ h => (nomatch h), fun _ h => (nomatch h)⟩, [], rfl, fun _ h => (nomatch h)⟩
  | tornRecord saved torn rest split short record =>
    refine .inr fun ⟨steps, h⟩ => ?_
    rw [stepsFor, record] at h
    simp only [RunRecord.load_torn saved split short, reduceCtorEq] at h
  | unrestored extra record journal =>
    have hentries : Journal.entries (filesAfter {} ops).journal = .ok (announcedIn ops ++ extra) := by
      rw [entries_getD]
      exact entries_of_whole journal
    refine .inl ⟨⟨fun text h => ?_, fun text h => ?_⟩, restorePlan (announcedIn ops ++ extra), ?_,
      fun step hstep => ?_⟩
    · rw [record] at h
      cases h
      exact ⟨run.first, rfl⟩
    · rw [h] at journal
      exact ⟨_, journal⟩
    · rw [stepsFor, record]
      simp only [RunRecord.load_text, run.first_restored, Bool.false_eq_true, if_false, hentries]
    · exact .inr (restorePlan_append hstep extra)
  | tornLine done entry torn rest split started short record journal =>
    refine .inr fun ⟨steps, h⟩ => ?_
    rw [stepsFor, record] at h
    simp only [RunRecord.load_text, run.first_restored, Bool.false_eq_true, if_false, journal,
      Journal.entries_text_append, Journal.entries_torn entry split started short, Except.map,
        reduceCtorEq] at h
  | restored record journal own =>
    refine .inl ⟨⟨fun text h => ?_, fun text h => ?_⟩, [], ?_, fun step hstep => .inl ?_⟩
    · rw [record] at h
      cases h
      exact ⟨run.final, rfl⟩
    · rw [h] at journal
      exact ⟨_, .inl journal⟩
    · rw [stepsFor, record]
      simp only [RunRecord.load_text, run.final_restored, if_true]
    · rw [own]
      exact hstep

/-- **When recovery survives a crash.** For any number of runs, each dead at any moment: the next
recovery raises on none of their files and undoes every change whose journal line had been written
completely, exactly when no file was left in the middle of a write. -/
theorem recovers_iff (deaths : List Death) : Recovers deaths ↔ ∀ death ∈ deaths, Whole death.files := by
  constructor
  · rintro ⟨recovery, hrecovery, _⟩ death hdeath
    have hsteps := recovery_ok_iff.1 ⟨recovery, hrecovery⟩ death.files (List.mem_map_of_mem hdeath)
    exact (death.left.whole_or_unreadable.resolve_right fun h => h hsteps).1
  · intro hwhole
    have hsteps : ∀ death ∈ deaths, ∃ steps, stepsFor death.files = .ok steps ∧
        ∀ step ∈ restorePlan death.announced, step ∈ death.ownSteps ∨ step ∈ steps := fun death hdeath =>
      (death.left.whole_or_unreadable.resolve_right fun h =>
        h (stepsFor_of_whole (hwhole death hdeath))).2
    obtain ⟨recovery, hrecovery⟩ := recovery_ok_iff.2 fun files hfiles => by
      obtain ⟨death, hdeath, rfl⟩ := List.mem_map.1 hfiles
      obtain ⟨steps, h, _⟩ := hsteps death hdeath
      exact ⟨steps, h⟩
    refine ⟨recovery, hrecovery, fun death hdeath step hstep => ?_⟩
    obtain ⟨steps, h, hundone⟩ := hsteps death hdeath
    rcases hundone step hstep with hown | hmem
    · exact .inl hown
    · exact .inr (mem_recovery_steps hrecovery (List.mem_map_of_mem hdeath) h step hmem)

/-! ## A journal line that was cut off -/

theorem isReal_zero : Json.IsReal "0.0" := rfl

def savedRecord (runId scenarioId : String) (restored : Bool) : SavedRecord where
  runId := runId
  scenarioId := scenarioId
  restored := restored
  printable := by
    simp [RunRecord.asdict, Json.Printable, Json.PrintableMembers, Json.PrintableItems, isReal_zero]

/-- A run that scaled a service to zero and died one character into its next journal line. -/
def tornJournal : Death where
  run :=
    { first := savedRecord "r1" "dependency-unavailable" false
      entries := [.scale .shippingService 1 0, .rolloutRestart .fraudService]
      final := savedRecord "r1" "dependency-unavailable" true
      first_restored := rfl
      final_restored := rfl }
  moment := (save (savedRecord "r1" "dependency-unavailable" false).toRunRecord
    ++ record (.scale .shippingService 1 0)).length + 2

theorem tornJournal_ops : tornJournal.ops =
    save tornJournal.run.first.toRunRecord ++ [Entry.scale .shippingService 1 0].flatMap record
      ++ .openJournal :: ['{'].map .writeJournal := by
  obtain ⟨tail, hline⟩ := (Entry.rolloutRestart .fraudService).line_cons
  have hops : tornJournal.run.ops =
      (save (savedRecord "r1" "dependency-unavailable" false).toRunRecord ++ record (.scale .shippingService 1 0))
        ++ (record (.rolloutRestart .fraudService) ++ ((restorePlan tornJournal.run.entries).map .restored
          ++ save tornJournal.run.final.toRunRecord)) := by
    simp only [Run.ops, tornJournal, List.flatMap_cons, List.flatMap_nil, List.append_assoc,
      List.nil_append]
  rw [Death.ops, hops, tornJournal, List.take_length_add_append]
  simp only [record, hline, List.cons_append, List.map_cons, List.take_succ_cons,
    List.take_zero, List.map_nil, List.flatMap_cons, List.flatMap_nil, List.append_nil]

/-- The recovery raises, and the service stays at zero replicas. -/
theorem torn_journal_stops_recovery :
    Entry.scale .shippingService 1 0 ∈ tornJournal.announced ∧ ¬ Recovers [tornJournal] := by
  refine ⟨?_, ?_⟩
  · rw [Death.announced, tornJournal_ops, announcedIn_append, announcedIn_announced]
    exact List.mem_append_left _ List.mem_cons_self
  · rintro ⟨recovery, hrecovery, _⟩
    obtain ⟨steps, hsteps⟩ := recovery_ok_iff.1 ⟨recovery, hrecovery⟩ tornJournal.files (by simp)
    obtain ⟨tail, hline⟩ := (Entry.rolloutRestart .fraudService).line_cons
    have htorn : (Entry.rolloutRestart .fraudService).line = ['{'] ++ ('"' :: tail) := hline
    obtain ⟨hrecord, hjournal⟩ := files_announced tornJournal.run [Entry.scale .shippingService 1 0]
    rw [Death.files, tornJournal_ops, filesAfter_append, filesAfter_openJournal, hrecord,
      hjournal] at hsteps
    simp only [stepsFor, RunRecord.load_text, tornJournal.run.first_restored,
      Bool.false_eq_true, if_false, Journal.entries_text_append,
      Journal.entries_torn _ htorn (List.cons_ne_nil _ _) (List.cons_ne_nil _ _), Except.map,
      reduceCtorEq] at hsteps

end CrashedWrites

end TxPlatform
