import TxPlatform.Lib.JsonLaws
import TxPlatform.Python.Lines
import TxPlatform.Scenarios.Journal

/-! # What a run leaves on disk (records.py:24-77, journal.py:23-36)

`record.json` is the record's fields as one indented JSON object, `journal.jsonl` one compact JSON
object per line. Both are read back with `json.loads`; what is not JSON raises. Python does not
check the types of a record's fields, but only `save` ever writes one.
-/

namespace TxPlatform

/-! ## The record -/

inductive RunStatus where
  | running
  | passed
  | failed
  | interrupted
  | error
  deriving DecidableEq

def RunStatus.literal : RunStatus → String
  | .running => "running"
  | .passed => "passed"
  | .failed => "failed"
  | .interrupted => "interrupted"
  | .error => "error"

def RunStatus.ofLiteral (text : String) : Option RunStatus :=
  [running, passed, failed, interrupted, error].find? fun status => status.literal = text

theorem RunStatus.ofLiteral_literal (status : RunStatus) : ofLiteral status.literal = some status := by
  cases status <;> decide

/-- One entry of `checks`. -/
structure Check where
  layer : String
  name : String
  passed : Bool
  detail : String
  deriving DecidableEq

/-- `RunRecord`. Requests, orders, events, faults and metrics are the JSON values they were given. -/
structure RunRecord where
  runId : String
  scenarioId : String
  status : RunStatus := .running
  startedAt : String := ""
  finishedAt : String := ""
  workloadStartedAt : Json := .real "0.0"
  workloadFinishedAt : Json := .real "0.0"
  requests : List Json := []
  orders : List (String × Json) := []
  kubernetesEvents : List Json := []
  faults : List Json := []
  checks : List Check := []
  metricsBefore : List (String × Json) := []
  restored : Bool := false
  error : String := ""

/-- What reading a run's files can raise. -/
inductive LoadError where
  /-- `json.JSONDecodeError`. -/
  | jsonDecode
  /-- The JSON value is not one that was ever written. -/
  | malformed
  deriving DecidableEq

namespace Check

def toJson (check : Check) : Json :=
  .obj [("layer", .str check.layer), ("name", .str check.name), ("passed", .bool check.passed),
    ("detail", .str check.detail)]

def ofJson : Json → Option Check
  | .obj members =>
    match Json.member members "layer", Json.member members "name", Json.member members "passed",
      Json.member members "detail" with
    | some (.str layer), some (.str name), some (.bool passed), some (.str detail) =>
      some { layer, name, passed, detail }
    | _, _, _, _ => none
  | _ => none

theorem ofJson_toJson (check : Check) : ofJson check.toJson = some check := rfl

end Check

namespace RunRecord

/-- `RunRecord.passed`. -/
def allPassed (record : RunRecord) : Bool := !record.checks.isEmpty && record.checks.all Check.passed

/-- What `restore_interrupted_runs` saves after a restore. -/
def marked (record : RunRecord) : RunRecord :=
  { record with restored := true
                status := if record.status = .running then .interrupted else record.status }

/-- `asdict(self)`. -/
def asdict (record : RunRecord) : List (String × Json) :=
  [("run_id", .str record.runId), ("scenario_id", .str record.scenarioId),
    ("status", .str record.status.literal), ("started_at", .str record.startedAt),
    ("finished_at", .str record.finishedAt), ("workload_started_at", record.workloadStartedAt),
    ("workload_finished_at", record.workloadFinishedAt), ("requests", .arr record.requests),
    ("orders", .obj record.orders), ("kubernetes_events", .arr record.kubernetesEvents),
    ("faults", .arr record.faults), ("checks", .arr (record.checks.map Check.toJson)),
    ("metrics_before", .obj record.metricsBefore), ("restored", .bool record.restored),
    ("error", .str record.error)]

/-- `RunRecord(**data)`. -/
def ofMembers (members : List (String × Json)) : Option RunRecord :=
  let get := Json.member members
  match get "run_id", get "scenario_id", get "status", get "started_at", get "finished_at",
    get "workload_started_at", get "workload_finished_at", get "requests", get "orders",
    get "kubernetes_events", get "faults", get "checks", get "metrics_before", get "restored",
    get "error" with
  | some (.str runId), some (.str scenarioId), some (.str status), some (.str startedAt),
    some (.str finishedAt), some workloadStartedAt, some workloadFinishedAt, some (.arr requests),
    some (.obj orders), some (.arr kubernetesEvents), some (.arr faults), some (.arr checks),
    some (.obj metricsBefore), some (.bool restored), some (.str error) =>
    match RunStatus.ofLiteral status, checks.mapM Check.ofJson with
    | some status, some checks =>
      some { runId, scenarioId, status, startedAt, finishedAt, workloadStartedAt,
             workloadFinishedAt, requests, orders, kubernetesEvents, faults, checks,
             metricsBefore, restored, error }
    | _, _ => none
  | _, _, _, _, _, _, _, _, _, _, _, _, _, _, _ => none

/-- What `save` writes to record.json. -/
def text (record : RunRecord) : List Char := Json.dumps Json.indented (.obj record.asdict)

/-- `records.load`. -/
def load (text : List Char) : Except LoadError RunRecord :=
  match Json.loads text with
  | none => .error .jsonDecode
  | some (.obj members) =>
    match ofMembers members with
    | none => .error .malformed
    | some record => .ok record
  | some _ => .error .malformed

theorem ofMembers_asdict (record : RunRecord) : ofMembers record.asdict = some record := by
  have hchecks : (record.checks.map Check.toJson).mapM Check.ofJson = some record.checks := by
    induction record.checks with
    | nil => rfl
    | cons check checks ih => simp [Check.ofJson_toJson, ih]
  simp only [ofMembers, asdict, Json.member, List.reverse_cons, List.reverse_nil, List.nil_append,
    List.cons_append, List.lookup_cons, String.reduceBEq, RunStatus.ofLiteral_literal, hchecks]

end RunRecord

/-- A record whose numbers Python prints, as every record it holds in memory is. -/
structure SavedRecord extends RunRecord where
  printable : (Json.obj toRunRecord.asdict).Printable

theorem RunRecord.load_text (record : SavedRecord) :
    RunRecord.load record.text = .ok record.toRunRecord := by
  simp only [RunRecord.load, RunRecord.text, Json.loads_dumps Json.indented record.printable,
    RunRecord.ofMembers_asdict]

/-- A record that was cut off cannot be read. -/
theorem RunRecord.load_torn (record : SavedRecord) {torn rest : List Char}
    (hsplit : record.text = torn ++ rest) (hrest : rest ≠ []) :
    RunRecord.load torn = .error .jsonDecode := by
  rw [RunRecord.load, Json.loads_object_torn Json.indented record.printable hsplit hrest]

/-! ## The journal -/

namespace Entry

/-- `{"kind": kind, **details}`. -/
def toJson : Entry → Json
  | fault service pod operation mode =>
    .obj [("kind", .str "fault"), ("service", .str service.name), ("pod", .str pod),
      ("operation", .str operation), ("mode", .str mode.literal)]
  | scale workload originalReplicas replicas =>
    .obj [("kind", .str "scale"), ("workload", .str workload.name),
      ("originalReplicas", .int originalReplicas), ("replicas", .int replicas)]
  | rolloutRestart workload => .obj [("kind", .str "rollout-restart"), ("workload", .str workload.name)]
  | deletePod workload pod uid =>
    .obj [("kind", .str "delete-pod"), ("workload", .str workload.name), ("pod", .str pod),
      ("uid", .str uid)]

/-- The entry a journal object stands for. -/
def ofJson : Json → Option Entry
  | .obj members =>
    let get := Json.member members
    match get "kind" with
    | some (.str "fault") =>
      match get "service", get "pod", get "operation", get "mode" with
      | some (.str service), some (.str pod), some (.str operation), some (.str mode) =>
        match Workload.ofName service, FaultSpecMode.ofLiteral mode with
        | some service, some mode => some (fault service pod operation mode)
        | _, _ => none
      | _, _, _, _ => none
    | some (.str "scale") =>
      match get "workload", get "originalReplicas", get "replicas" with
      | some (.str workload), some (.int originalReplicas), some (.int replicas) =>
        (Workload.ofName workload).map fun workload =>
          scale workload originalReplicas.toNat replicas.toNat
      | _, _, _ => none
    | some (.str "rollout-restart") =>
      match get "workload" with
      | some (.str workload) => (Workload.ofName workload).map rolloutRestart
      | _ => none
    | some (.str "delete-pod") =>
      match get "workload", get "pod", get "uid" with
      | some (.str workload), some (.str pod), some (.str uid) =>
        (Workload.ofName workload).map fun workload => deletePod workload pod uid
      | _, _, _ => none
    | _ => none
  | _ => none

theorem ofJson_toJson (entry : Entry) : ofJson entry.toJson = some entry := by
  cases entry <;>
    simp [ofJson, toJson, Json.member, List.lookup_cons, Workload.ofName_name, FaultSpecMode.ofLiteral_literal]

/-- What `Journal.record` writes, without the line break. -/
def line (entry : Entry) : List Char := Json.dumps Json.compact entry.toJson

end Entry

namespace Journal

/-- `[json.loads(line) for line in lines if line.strip()]`, each as the entry it stands for. -/
def readLines : List (List Char) → Except LoadError (List Entry)
  | [] => .ok []
  | line :: lines =>
    if line.all Python.isSpace then readLines lines
    else
      match Json.loads line with
      | none => .error .jsonDecode
      | some json =>
        match Entry.ofJson json, readLines lines with
        | some entry, .ok entries => .ok (entry :: entries)
        | none, _ => .error .malformed
        | _, .error error => .error error

/-- `Journal.entries`: no file is no entry. -/
def entries : Option (List Char) → Except LoadError (List Entry)
  | none => .ok []
  | some text => readLines (Python.splitlines text)

/-- The file after these entries were recorded. -/
def text (entries : List Entry) : List Char := entries.flatMap fun entry => entry.line ++ ['\n']

end Journal

/-! ### A line of the journal -/

theorem Json.quote_ascii (text : String) : ∀ c ∈ Json.quote text, 0x20 ≤ c.toNat ∧ c.toNat ≤ 0x7e := by
  have hdigit : ∀ d : Fin 16, 0x20 ≤ (Nat.digitChar d).toNat ∧ (Nat.digitChar d).toNat ≤ 0x7e := by decide
  have hunit : ∀ unit, ∀ c ∈ Json.escapeUnit unit, 0x20 ≤ c.toNat ∧ c.toNat ≤ 0x7e := by
    intro unit c hc
    simp only [Json.escapeUnit, List.mem_cons, List.not_mem_nil, or_false] at hc
    rcases hc with rfl | rfl | rfl | rfl | rfl | rfl
    · decide
    · decide
    · exact hdigit ⟨_, Nat.mod_lt _ (by decide)⟩
    · exact hdigit ⟨_, Nat.mod_lt _ (by decide)⟩
    · exact hdigit ⟨_, Nat.mod_lt _ (by decide)⟩
    · exact hdigit ⟨_, Nat.mod_lt _ (by decide)⟩
  have hescape : ∀ a, ∀ c ∈ Json.escape a, 0x20 ≤ c.toNat ∧ c.toNat ≤ 0x7e := by
    intro a c hc
    have hsimple : ∀ e : Char, 0x20 ≤ e.toNat ∧ e.toNat ≤ 0x7e → c ∈ ['\\', e] → 0x20 ≤ c.toNat ∧
      c.toNat ≤ 0x7e := by
      intro e he hc
      simp only [List.mem_cons, List.not_mem_nil, or_false] at hc
      rcases hc with rfl | rfl
      · decide
      · exact he
    unfold Json.escape at hc
    split at hc
    · exact hsimple _ (by decide) hc
    split at hc
    · exact hsimple _ (by decide) hc
    split at hc
    · exact hsimple _ (by decide) hc
    split at hc
    · exact hsimple _ (by decide) hc
    split at hc
    · exact hsimple _ (by decide) hc
    split at hc
    · exact hsimple _ (by decide) hc
    split at hc
    · exact hsimple _ (by decide) hc
    split at hc
    · rename_i hplain
      rw [List.mem_singleton.1 hc]
      exact hplain
    split at hc
    · exact hunit _ c hc
    · rcases List.mem_append.1 hc with hc | hc
      · exact hunit _ c hc
      · exact hunit _ c hc
  intro c hc
  simp only [Json.quote, List.mem_cons, List.mem_append, List.mem_flatMap, List.not_mem_nil,
    or_false] at hc
  rcases hc with rfl | ⟨a, _, hc⟩ | rfl
  · decide
  · exact hescape a c hc
  · decide

theorem Json.intText_ascii (n : Int) : ∀ c ∈ Json.intText n, 0x20 ≤ c.toNat ∧ c.toNat ≤ 0x7e := by
  intro c hc
  unfold Json.intText at hc
  rcases List.mem_append.1 hc with hc | hc
  · split at hc
    · rw [List.mem_singleton.1 hc]; decide
    · cases hc
  · have hdigit := Nat.isDigit_of_mem_toDigits (by omega) (by omega) hc
    simp only [Char.isDigit, Bool.and_eq_true, decide_eq_true_eq, ge_iff_le,
      UInt32.le_iff_toNat_le] at hdigit
    simp only [Char.toNat]
    have h0 : ('0'.val.toNat) = 48 := rfl
    have h9 : ('9'.val.toNat) = 57 := rfl
    omega

/-- Strings and integers in one compact object stay on one line of printable ASCII. -/
theorem Json.object_ascii {members : List (String × Json)}
    (hflat : ∀ member ∈ members, (∃ text, member.2 = .str text) ∨ ∃ n, member.2 = .int n) :
    ∀ c ∈ Json.dumps Json.compact (.obj members), 0x20 ≤ c.toNat ∧ c.toNat ≤ 0x7e := by
  have hitem : ∀ depth, ∀ item : Json, ((∃ text, item = .str text) ∨ ∃ n, item = .int n) →
      ∀ c ∈ Json.write Json.compact depth item, 0x20 ≤ c.toNat ∧ c.toNat ≤ 0x7e := by
    rintro depth item (⟨text, rfl⟩ | ⟨n, rfl⟩) c hc
    · exact Json.quote_ascii text c (by simpa only [Json.write] using hc)
    · exact Json.intText_ascii n c (by simpa only [Json.write] using hc)
  have hmembers : ∀ depth, ∀ members : List (String × Json),
      (∀ member ∈ members, (∃ text, member.2 = .str text) ∨ ∃ n, member.2 = .int n) →
      ∀ c ∈ Json.writeMembers Json.compact depth members, 0x20 ≤ c.toNat ∧ c.toNat ≤ 0x7e := by
    intro depth members hflat
    induction members with
    | nil => intro c hc; rw [Json.writeMembers] at hc; cases hc
    | cons member members ih =>
      obtain ⟨key, item⟩ := member
      intro c hc
      simp only [Json.writeMembers, Json.compact, List.mem_cons, List.mem_append, List.not_mem_nil,
        or_false] at hc
      rcases hc with rfl | (((rfl | hc) | rfl | rfl) | hc) | hc
      · decide
      · decide
      · exact Json.quote_ascii key c hc
      · decide
      · decide
      · exact hitem depth item (hflat _ List.mem_cons_self) c hc
      · exact ih (fun m hm => hflat m (List.mem_cons_of_mem _ hm)) c hc
  intro c hc
  rcases members with _ | ⟨⟨key, item⟩, members⟩
  · simp only [Json.dumps, Json.write, List.mem_cons, List.not_mem_nil, or_false] at hc
    rcases hc with rfl | rfl <;> decide
  · simp only [Json.dumps, Json.write, Json.compact, List.mem_cons, List.mem_append,
      List.not_mem_nil, or_false, List.nil_append, List.append_nil] at hc
    rcases hc with rfl | (((hc | rfl | rfl) | hc) | hc) | rfl
    · decide
    · exact Json.quote_ascii key c hc
    · decide
    · decide
    · exact hitem _ item (hflat _ List.mem_cons_self) c hc
    · exact hmembers _ members (fun m hm => hflat m (List.mem_cons_of_mem _ hm)) c hc
    · decide

theorem Entry.line_ascii (entry : Entry) : ∀ c ∈ entry.line, 0x20 ≤ c.toNat ∧ c.toNat ≤ 0x7e := by
  cases entry <;> exact Json.object_ascii (by simp)

theorem Entry.loads_line (entry : Entry) : Json.loads entry.line = some entry.toJson :=
  Json.loads_dumps Json.compact (by cases entry <;> simp [Entry.toJson, Json.Printable, Json.PrintableMembers])

/-- A line that was cut off cannot be read. -/
theorem Entry.loads_torn (entry : Entry) {torn rest : List Char} (hsplit : entry.line = torn ++ rest)
    (hrest : rest ≠ []) : Json.loads torn = none := by
  have hprint : entry.toJson.Printable := by
    cases entry <;> simp [Entry.toJson, Json.Printable, Json.PrintableMembers]
  cases entry <;> exact Json.loads_object_torn Json.compact hprint hsplit hrest

/-- Every line is an object with members. -/
theorem Entry.line_cons (entry : Entry) : ∃ tail, entry.line = '{' :: '"' :: tail := by
  cases entry <;> exact ⟨_, by rw [Entry.line, Json.dumps, Entry.toJson, Json.write]; rfl⟩

/-- Every line begins with its bracket, so none is taken for a blank one. -/
theorem Entry.not_blank (entry : Entry) {torn rest : List Char} (hsplit : entry.line = torn ++ rest)
    (hne : torn ≠ []) :
    torn.all Python.isSpace = false := by
  obtain ⟨tail, htail⟩ := entry.line_cons
  cases torn with
  | nil => exact absurd rfl hne
  | cons c torn =>
    rw [htail] at hsplit
    obtain rfl : '{' = c := (List.cons.inj hsplit).1
    rfl

namespace Journal

theorem readLines_line (entry : Entry) (lines : List (List Char)) :
    readLines (entry.line :: lines) = (readLines lines).map (entry :: ·) := by
  have hblank : entry.line.all Python.isSpace = false := by
    refine entry.not_blank (List.append_nil _).symm fun hnil => ?_
    have hload := entry.loads_line
    rw [hnil] at hload
    cases hload
  simp only [readLines, hblank, Bool.false_eq_true, if_false, entry.loads_line, Entry.ofJson_toJson]
  cases readLines lines <;> rfl

/-- Whatever follows the recorded lines is read as a line of its own. -/
theorem entries_text_append (recorded : List Entry) (rest : List Char) :
    entries (some (text recorded ++ rest)) = (entries (some rest)).map (recorded ++ ·) := by
  induction recorded with
  | nil =>
    simp only [text, List.flatMap_nil, List.nil_append]
    cases entries (some rest) <;> rfl
  | cons entry recorded ih =>
    have hline : ∀ c ∈ entry.line, Python.isLineBreak c = false :=
      fun c hc => Python.isLineBreak_of_ascii (entry.line_ascii c hc)
    simp only [text, entries, List.flatMap_cons, List.append_assoc, List.cons_append,
      List.nil_append] at ih ⊢
    rw [Python.splitlines_line_append hline, readLines_line, ih]
    cases readLines (Python.splitlines rest) <;> rfl

theorem entries_text (recorded : List Entry) : entries (some (text recorded)) = .ok recorded := by
  have h := entries_text_append recorded []
  rw [List.append_nil] at h
  rw [h]
  simp [entries, Python.splitlines, Python.splitlinesFrom, readLines, Except.map]

/-- A last line that only lacks its line break counts. -/
theorem entries_line (entry : Entry) : entries (some entry.line) = .ok [entry] := by
  have hline : ∀ c ∈ entry.line, Python.isLineBreak c = false :=
    fun c hc => Python.isLineBreak_of_ascii (entry.line_ascii c hc)
  have hne : entry.line ≠ [] := fun hnil => by
    have hload := entry.loads_line
    rw [hnil] at hload
    cases hload
  rw [entries, Python.splitlines_last hline hne, readLines_line]
  rfl

/-- A last line that was cut off makes the whole journal unreadable. -/
theorem entries_torn (entry : Entry) {torn rest : List Char} (hsplit : entry.line = torn ++ rest)
    (hne : torn ≠ []) (hrest : rest ≠ []) : entries (some torn) = .error .jsonDecode := by
  have hline : ∀ c ∈ torn, Python.isLineBreak c = false := fun c hc =>
    Python.isLineBreak_of_ascii (entry.line_ascii c (by rw [hsplit]; exact List.mem_append_left _ hc))
  simp only [entries, Python.splitlines_last hline hne, readLines, entry.not_blank hsplit hne,
    Bool.false_eq_true, if_false, entry.loads_torn hsplit hrest]

end Journal

end TxPlatform
