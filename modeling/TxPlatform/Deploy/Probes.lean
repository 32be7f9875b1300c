import TxPlatform.Lib.Shell
import TxPlatform.Lib.Words
import TxPlatform.Python.Values

/-! # HTTP probes (probes.py:116-137)

A probe pod runs a script that fetches each URL between two markers; the reader cuts the bodies out
of the log and takes the number behind the second marker for the exit status of the fetch. The
script prints `$?` after an `echo`, so the number is the status of that `echo`. Bodies come back as
they were (`parse_log`), statuses only when every fetch succeeds (`truthful_iff`).
-/

namespace TxPlatform

namespace Probes

open Shell

/-! ## The script and its reader -/

def decimal (n : Nat) : List Char := Nat.toDigits 10 n

def beginWord : List Char := "PROBE-HTTP-BEGIN".toList
def endWord : List Char := "PROBE-HTTP-END".toList

/-- `f"PROBE-HTTP-BEGIN {index}"`. -/
def beginMarker (index : Nat) : List Char := beginWord ++ ' ' :: decimal index

/-- `f"PROBE-HTTP-END {index} "`. -/
def endMarker (index : Nat) : List Char := endWord ++ ' ' :: (decimal index ++ [' '])

/-- The two lines of each URL, from an index on. -/
def probeLines (timeout : Int) : Nat → List (List Char) → List (List Char)
  | _, [] => []
  | index, url :: urls =>
    ("echo \"".toList ++ beginMarker index ++ "\"".toList) ::
      ("wget -q -O - -T ".toList ++ (toString timeout).toList ++ " \"".toList ++ url ++
        "\"; echo; echo \"".toList ++ endMarker index ++ "$?\"".toList) ::
      probeLines timeout (index + 1) urls

def buildHttpProbeScript (urls : List (List Char)) (timeout : Int) : List Char :=
  ['\n'].intercalate (probeLines timeout 0 urls)

/-- `text[start:stop]`. -/
def slice (text : List Char) (start stop : Nat) : List Char := (text.take stop).drop start

/-- `text.find(word, start)`. -/
def findFrom (word text : List Char) (start : Nat) : Option Nat := (find word (text.drop start)).map (start + ·)

/-- The result of one URL. What is searched behind a marker that is not there does not matter. -/
def parseOne (output : List Char) (index : Nat) : Bool × List Char :=
  match find (beginMarker index ++ ['\n']) output with
  | none => (false, [])
  | some start =>
    match findFrom (endMarker index) output start with
    | none => (false, [])
    | some stop =>
      let body := Python.trim (slice output (start + (beginMarker index ++ ['\n']).length) stop)
      let exitCode := Python.trim ((output.drop (stop + (endMarker index).length)).takeWhile (· ≠ '\n'))
      (exitCode = ['0'], body)

def parseHttpProbeOutput (output : List Char) (count : Nat) : List (Bool × List Char) :=
  (List.range count).map (parseOne output)

/-! ## Probes -/

/-- A URL can be written between double quotes. -/
structure Url where
  text : List Char
  quotable : quotable text = true

/-- What one `wget` does. Its output holds no marker of any index, not even one that the newline
behind it would complete. -/
structure Fetch extends Outcome where
  noBegin : ∀ index, ¬ beginMarker index ++ ['\n'] <:+: output ++ ['\n']
  noEnd : ∀ index, ¬ endMarker index <:+: output

def environment (values : List Char → List Char) (fetches : Nat → Fetch) : Environment :=
  ⟨values, fun n => (fetches n).toOutcome⟩

/-- What the reader should make of a fetch. -/
def resultOf (fetch : Fetch) : Bool × List Char := (fetch.status = 0, Python.trim fetch.output)

/-- The reader reports each fetch as it was, in order. -/
def Truthful (values : List Char → List Char) (urls : List Url) (timeout : Int) (fetches : Nat → Fetch) : Prop :=
  ∃ log, run (environment values fetches) (buildHttpProbeScript (urls.map (·.text)) timeout) = some log ∧
    parseHttpProbeOutput log urls.length = (List.range urls.length).map fun index => resultOf (fetches index)

/-! ## What the script prints -/

/-- The commands of one URL, line by line. -/
def probeCommands (timeout : Int) (index : Nat) (url : List Char) : List (List (List Argument)) :=
  [[[.plain "echo".toList, .quoted (beginMarker index)]],
    [[.plain "wget".toList, .plain "-q".toList, .plain "-O".toList, .plain "-".toList, .plain "-T".toList,
        .plain (toString timeout).toList, .quoted url],
      [.plain "echo".toList],
      [.plain "echo".toList, .quoted (endMarker index ++ ['$', '?'])]]]

def scriptCommands (timeout : Int) : Nat → List (List Char) → List (List (List Argument))
  | _, [] => []
  | index, url :: urls => probeCommands timeout index url ++ scriptCommands timeout (index + 1) urls

theorem map_lineText_scriptCommands (timeout : Int) (index : Nat) (urls : List (List Char)) :
    (scriptCommands timeout index urls).map lineText = probeLines timeout index urls := by
  induction urls generalizing index with
  | nil => rfl
  | cons url urls ih =>
    simp [scriptCommands, probeCommands, probeLines, ih, lineText, commandText, Argument.text]

theorem isPlain_decimal {n : Nat} {c : Char} (h : c ∈ decimal n) : isPlain c = true := by
  have hdigit : c.isDigit = true := Nat.isDigit_of_mem_toDigits (by omega) (by omega) h
  simp [isPlain, Char.isAlphanum, hdigit]

theorem isPlain_timeout (timeout : Int) : (toString timeout).toList ≠ [] ∧
    ∀ c ∈ (toString timeout).toList, isPlain c = true := by
  cases timeout with
  | ofNat n =>
    have htext : (toString (Int.ofNat n)).toList = decimal n := Nat.toList_repr
    rw [htext]
    exact ⟨Nat.toDigits_ne_nil, fun c => isPlain_decimal⟩
  | negSucc n =>
    have htext : (toString (Int.negSucc n)).toList = '-' :: decimal (n + 1) := by
      show ("-" ++ (n + 1).repr).toList = _
      rw [String.toList_append, Nat.toList_repr]
      rfl
    rw [htext]
    refine ⟨List.cons_ne_nil _ _, fun c hc => ?_⟩
    obtain rfl | hc := List.mem_cons.1 hc
    · decide
    · exact isPlain_decimal hc

/-- The parts of a marker mean nothing to the shell. -/
theorem isInert_marker {word : List Char} (h : ∀ c ∈ word, isInert c = true) (index : Nat) :
    ∀ c ∈ word ++ ' ' :: decimal index, isInert c = true := by
  intro c hc
  obtain hc | hc := List.mem_append.1 hc
  · exact h c hc
  · obtain rfl | hc := List.mem_cons.1 hc
    · decide
    · exact isInert_of_isPlain (isPlain_decimal hc)

theorem isInert_beginWord : ∀ c ∈ beginWord, isInert c = true :=
  List.all_eq_true.1 (by decide)

theorem isInert_endWord : ∀ c ∈ endWord, isInert c = true :=
  List.all_eq_true.1 (by decide)

theorem quotable_beginMarker (index : Nat) : quotable (beginMarker index) = true := by
  have hinert := quotable_append (isInert_marker isInert_beginWord index) (show quotable [] = true from rfl)
  rwa [List.append_nil] at hinert

theorem endMarker_eq (index : Nat) : endMarker index = (endWord ++ ' ' :: decimal index) ++ [' '] := by
  simp [endMarker]

theorem quotable_endMarker (index : Nat) : quotable (endMarker index ++ ['$', '?']) = true := by
  rw [endMarker_eq, List.append_assoc]
  exact quotable_append (isInert_marker isInert_endWord index) rfl

theorem valid_probeCommands (timeout : Int) (index : Nat) {url : List Char} (h : quotable url = true) :
    ∀ line ∈ probeCommands timeout index url, ValidLine line := by
  have hbegin := quotable_beginMarker index
  have hend := quotable_endMarker index
  have hecho : Argument.Valid (.plain "echo".toList) := ⟨by decide, List.all_eq_true.1 (by decide)⟩
  have htimeout : Argument.Valid (.plain (toString timeout).toList) := isPlain_timeout timeout
  have hplain : ∀ text ∈ ["wget".toList, "-q".toList, "-O".toList, "-".toList, "-T".toList],
      Argument.Valid (.plain text) := by
    have key : ∀ text ∈ ["wget".toList, "-q".toList, "-O".toList, "-".toList, "-T".toList],
        text ≠ [] ∧ text.all isPlain = true := by decide
    exact fun text htext => ⟨(key text htext).1, List.all_eq_true.1 (key text htext).2⟩
  simp only [List.mem_cons, List.not_mem_nil, or_false, forall_eq_or_imp, forall_eq] at hplain
  simp only [probeCommands, ValidLine, ValidCommand, List.mem_cons, List.not_mem_nil, or_false, forall_eq_or_imp,
    forall_eq, ne_eq, reduceCtorEq, not_false_eq_true, true_and]
  exact ⟨⟨hecho, hbegin⟩, ⟨hplain.1, hplain.2.1, hplain.2.2.1, hplain.2.2.2.1, hplain.2.2.2.2, htimeout, h⟩, hecho,
    hecho, hend⟩

/-- The log of one probe: what `$?` stands for after `echo` is 0. -/
def block (index : Nat) (fetch : Fetch) : List Char :=
  beginMarker index ++ '\n' :: (fetch.output ++ '\n' :: (endMarker index ++ ['0', '\n']))

def logFrom (fetches : Nat → Fetch) (index count : Nat) : List Char :=
  (List.range' index count).flatMap fun index => block index (fetches index)

theorem notMem_decimal {c : Char} (h : c.isDigit = false) (n : Nat) : c ∉ decimal n := fun hmem => by
  rw [Nat.isDigit_of_mem_toDigits (by omega) (by omega) hmem] at h
  cases h

/-- A character of neither part is not in a marker. -/
theorem notMem_marker {c : Char} {word : List Char} (hword : c ∉ word) (hdigit : c.isDigit = false) (hblank : c ≠ ' ')
    (index : Nat) : c ∉ word ++ ' ' :: decimal index := by
  rw [List.mem_append, List.mem_cons, not_or, not_or]
  exact ⟨hword, hblank, notMem_decimal hdigit index⟩

theorem notMem_beginMarker {c : Char} (hword : c ∉ beginWord) (hdigit : c.isDigit = false) (hblank : c ≠ ' ')
    (index : Nat) : c ∉ beginMarker index := notMem_marker hword hdigit hblank index

theorem notMem_endMarker {c : Char} (hword : c ∉ endWord) (hdigit : c.isDigit = false) (hblank : c ≠ ' ')
    (index : Nat) : c ∉ endMarker index := by
  rw [endMarker_eq, List.mem_append, not_or, List.mem_singleton]
  exact ⟨notMem_marker hword hdigit hblank index, hblank⟩

section Run
variable (values : List Char → List Char) (fetches : Nat → Fetch) (timeout : Int)

theorem executeAll_probe (state : State) (url : List Char) :
    executeAll (environment values fetches)
        ((probeCommands timeout state.externals url).flatten.map (·.map (·.word))) state =
      ⟨0, state.externals + 1, state.output ++ block state.externals (fetches state.externals)⟩ := by
  have hbegin : '$' ∉ beginMarker state.externals := notMem_beginMarker (by decide) rfl (by decide) _
  have hend : '$' ∉ endMarker state.externals := notMem_endMarker (by decide) rfl (by decide) _
  have hstatus : Nat.toDigits 10 0 = ['0'] := Nat.toDigits_zero 10
  have hwget : "wget".toList ≠ "echo".toList := by decide
  have hcommands : (probeCommands timeout state.externals url).flatten.map (·.map (·.word)) =
      [[Argument.plain "echo".toList, .quoted (beginMarker state.externals)].map (·.word),
        [Argument.plain "wget".toList, .plain "-q".toList, .plain "-O".toList, .plain "-".toList,
          .plain "-T".toList, .plain (toString timeout).toList, .quoted url].map (·.word),
        [Argument.plain "echo".toList].map (·.word),
        [Argument.plain "echo".toList, .quoted (endMarker state.externals ++ ['$', '?'])].map (·.word)] := rfl
  rw [hcommands]
  simp only [executeAll, List.foldl_cons, List.foldl_nil, execute_echo, execute_external _ _ _ hwget,
    List.map_cons (f := fun argument => expandWord _ (Argument.word argument)), List.map_nil]
  simp only [expandWord_quoted, expand_of_notMem _ hbegin, expand_append_status _ hend, lookup, if_true,
    hstatus, List.intercalate_singleton, List.intercalate_nil, State.mk.injEq, true_and]
  simp [block, environment]

theorem executeAll_scriptCommands (urls : List (List Char)) (state : State) :
    (executeAll (environment values fetches)
        ((scriptCommands timeout state.externals urls).flatten.map (·.map (·.word))) state).output =
      state.output ++ logFrom fetches state.externals urls.length := by
  induction urls generalizing state with
  | nil => simp [scriptCommands, executeAll, logFrom]
  | cons url urls ih =>
    have hprobe := executeAll_probe values fetches timeout state url
    rw [scriptCommands, List.flatten_append, List.map_append, executeAll, List.foldl_append]
    rw [executeAll] at hprobe
    rw [hprobe]
    have hrest := ih ⟨0, state.externals + 1, state.output ++ block state.externals (fetches state.externals)⟩
    rw [executeAll] at hrest
    rw [hrest, logFrom, logFrom, List.length_cons, List.range'_succ, List.flatMap_cons, List.append_assoc]

/-- The log is one block after the other. -/
theorem run_script (urls : List Url) :
    run (environment values fetches) (buildHttpProbeScript (urls.map (·.text)) timeout) =
      some (logFrom fetches 0 urls.length) := by
  have hvalid : ∀ (urls : List Url) (index : Nat), ∀ line ∈ scriptCommands timeout index (urls.map (·.text)),
      ValidLine line := by
    intro urls
    induction urls with
    | nil => simp [scriptCommands]
    | cons url urls ih =>
      intro index line hline
      obtain hline | hline := List.mem_append.1 hline
      · exact valid_probeCommands timeout index url.quotable line hline
      · exact ih (index + 1) line hline
  have hscript : buildHttpProbeScript (urls.map (·.text)) timeout =
      scriptText (scriptCommands timeout 0 (urls.map (·.text))) := by
    rw [buildHttpProbeScript, scriptText, map_lineText_scriptCommands]
  have hlog := executeAll_scriptCommands values fetches timeout (urls.map (·.text)) {}
  rw [List.nil_append, List.length_map] at hlog
  rw [hscript, run, parse_scriptText (hvalid urls 0), Option.map_some, hlog]

end Run

/-! ## What the reader finds -/

theorem decimal_inj {i j : Nat} (h : decimal i = decimal j) : i = j := by
  have hvalue := congrArg (Nat.ofDigitChars 10 · 0) h
  simpa only [decimal, Nat.ofDigitChars_ten_toDigits] using hvalue

/-- Only a begin marker of the same index ends in one. -/
theorem begin_notInfix_begin {i j : Nat} (h : i ≠ j) :
    ¬ beginMarker i ++ ['\n'] <:+: beginMarker j ++ ['\n'] := by
  intro hinfix
  obtain ⟨front, hfront⟩ := suffix_of_infix_border (notMem_beginMarker (by decide) rfl (by decide) j) hinfix
  rw [beginMarker, beginMarker, ← List.append_assoc, append_cons_last_inj (notMem_decimal rfl i)
    (notMem_decimal rfl j)] at hfront
  exact h (decimal_inj hfront.2)

/-- Before its last blank a begin marker has a letter, an end marker a digit. -/
theorem begin_notInfix_end (i j : Nat) : ¬ beginMarker i ++ ['\n'] <:+: (endMarker j ++ ['0']) ++ ['\n'] := by
  intro hinfix
  have hline : '\n' ∉ endMarker j ++ ['0'] := fun hmem => (List.mem_append.1 hmem).elim
    (notMem_endMarker (by decide) rfl (by decide) j) (by decide)
  obtain ⟨front, hfront⟩ := suffix_of_infix_border hline hinfix
  have hend : endMarker j ++ ['0'] = (endWord ++ ' ' :: decimal j) ++ ' ' :: ['0'] := by simp [endMarker]
  have hzero : ' ' ∉ ['0'] := by decide
  rw [beginMarker, hend, ← List.append_assoc, append_cons_last_inj (notMem_decimal rfl i) hzero] at hfront
  have hlast := congrArg List.getLast? hfront.1
  have hdigits : (' ' :: decimal j).getLast? = (decimal j).getLast? :=
    List.getLast?_cons_of_ne_nil Nat.toDigits_ne_nil
  rw [List.getLast?_append_of_ne_nil _ (by decide), List.getLast?_append_of_ne_nil _ (List.cons_ne_nil _ _),
    hdigits] at hlast
  have hletter : beginWord.getLast? = some 'N' := by decide
  rw [hletter] at hlast
  exact notMem_decimal rfl j (List.mem_of_getLast? hlast.symm)

/-- An end marker has two blanks, a begin marker one. -/
theorem end_notInfix_begin (i j : Nat) : ¬ endMarker i <:+: beginMarker j ++ ['\n'] := by
  intro hinfix
  have hcount := hinfix.sublist.count_le ' '
  have hdecimal : ∀ n, (decimal n).count ' ' = 0 := fun n => List.count_eq_zero.2 (notMem_decimal rfl n)
  have hend : endWord.count ' ' = 0 := by decide
  have hbegin : beginWord.count ' ' = 0 := by decide
  simp [endMarker, beginMarker, hdecimal, hend, hbegin] at hcount

/-- A begin marker is not found in the blocks of other indices. -/
theorem find_begin_skip (fetches : Nat → Fetch) {index : Nat} {indices : List Nat} (h : index ∉ indices)
    (rest : List Char) :
    find (beginMarker index ++ ['\n']) (indices.flatMap (fun i => block i (fetches i)) ++ rest) =
      (find (beginMarker index ++ ['\n']) rest).map
        (· + (indices.flatMap fun i => block i (fetches i)).length) := by
  have hborder : '\n' ∉ (beginMarker index ++ ['\n']).dropLast := by
    rw [List.dropLast_concat]
    exact notMem_beginMarker (by decide) rfl (by decide) index
  induction indices with
  | nil => simp
  | cons i indices ih =>
    obtain ⟨hne, hrest⟩ := not_or.1 fun hmem => h (List.mem_cons.2 hmem)
    have hblock : ∀ more, block i (fetches i) ++ more = beginMarker i ++ '\n' ::
        ((fetches i).output ++ '\n' :: ((endMarker i ++ ['0']) ++ '\n' :: more)) := by
      intro more
      simp [block]
    rw [List.flatMap_cons, List.append_assoc, hblock, find_skip hborder (begin_notInfix_begin hne),
      find_skip hborder ((fetches i).noBegin index), find_skip hborder (begin_notInfix_end index i), ih hrest,
      Option.map_map, Option.map_map, Option.map_map, List.length_append]
    congr 1
    funext start
    simp only [Function.comp_apply, block, List.length_append, List.length_cons, List.length_nil]
    omega

theorem trim_append_newline (text : List Char) : Python.trim (text ++ ['\n']) = Python.trim text := by
  have hspace : ['\n'].dropWhile Python.isSpace = [] := by decide
  have hnewline : Python.isSpace '\n' = true := by decide
  rw [Python.trim, Python.trim, List.dropWhile_append, hspace]
  split
  · rename_i hempty
    rw [List.isEmpty_iff.1 hempty]
  · rw [List.reverse_append, List.reverse_singleton, List.singleton_append, List.dropWhile_cons_of_pos hnewline]

theorem slice_middle (front middle rest : List Char) :
    slice (front ++ (middle ++ rest)) front.length (front.length + middle.length) = middle := by
  rw [slice, ← List.append_assoc, ← List.length_append, List.take_left, List.drop_left]

theorem parseOne_block {index : Nat} {front rest : List Char} (fetch : Fetch)
    (h : find (beginMarker index ++ ['\n']) (front ++ (block index fetch ++ rest)) = some front.length) :
    parseOne (front ++ (block index fetch ++ rest)) index = (true, Python.trim fetch.output) := by
  have hborder : '\n' ∉ (endMarker index).dropLast := fun hmem =>
    notMem_endMarker (by decide) rfl (by decide) index (List.dropLast_subset _ hmem)
  have hline : '\n' ∉ endMarker index := notMem_endMarker (by decide) rfl (by decide) index
  have hblock : block index fetch ++ rest = beginMarker index ++ '\n' ::
      (fetch.output ++ '\n' :: (endMarker index ++ '0' :: '\n' :: rest)) := by
    simp [block]
  have hnotOutput : ¬ endMarker index <:+: fetch.output ++ ['\n'] := by
    rw [infix_append_borders (by simpa using hline) (by simp [endMarker])]
    exact fetch.noEnd index
  have hstop : findFrom (endMarker index) (front ++ (block index fetch ++ rest)) front.length =
      some ((front ++ (beginMarker index ++ ['\n'])).length + (fetch.output ++ ['\n']).length) := by
    rw [findFrom, List.drop_left, hblock, find_skip hborder (end_notInfix_begin index index),
      find_skip hborder hnotOutput, find_of_prefix (List.prefix_append _ _)]
    simp only [Option.map_some, List.length_append, List.length_cons, List.length_nil, Option.some.injEq]
    omega
  have hbody : front ++ (block index fetch ++ rest) = (front ++ (beginMarker index ++ ['\n'])) ++
      ((fetch.output ++ ['\n']) ++ (endMarker index ++ '0' :: '\n' :: rest)) := by
    rw [hblock]
    simp
  have hcode : front ++ (block index fetch ++ rest) = ((front ++ (beginMarker index ++ ['\n'])) ++
      (fetch.output ++ ['\n']) ++ endMarker index) ++ '0' :: '\n' :: rest := by
    rw [hblock]
    simp
  have hslice := slice_middle (front ++ (beginMarker index ++ ['\n'])) (fetch.output ++ ['\n'])
    (endMarker index ++ '0' :: '\n' :: rest)
  rw [← hbody, @List.length_append _ front] at hslice
  have hdrop : (front ++ (block index fetch ++ rest)).drop
      ((front ++ (beginMarker index ++ ['\n'])).length + (fetch.output ++ ['\n']).length + (endMarker index).length) =
        '0' :: '\n' :: rest := by
    rw [hcode, ← List.length_append, ← List.length_append, List.drop_left]
  have htake : ('0' :: '\n' :: rest).takeWhile (fun c => decide (c ≠ '\n')) = ['0'] := by simp
  have htrim : Python.trim ['0'] = ['0'] := by decide
  rw [parseOne, h]
  simp only [hstop]
  rw [hdrop, @List.length_append _ front, hslice, trim_append_newline, htake, htrim]
  simp only [decide_true]

/-- The reader returns the body of a fetch, and takes it for a success. -/
theorem parseOne_log (fetches : Nat → Fetch) {index count : Nat} (h : index < count) :
    parseOne (logFrom fetches 0 count) index = (true, Python.trim (fetches index).output) := by
  have hsplit : List.range' 0 count = List.range' 0 index ++ index :: List.range' (index + 1) (count - index - 1) := by
    have hcount : count = index + (count - index - 1 + 1) := by omega
    rw [hcount, ← List.range'_append_1, Nat.zero_add, List.range'_succ]
    simp
  rw [logFrom, hsplit, List.flatMap_append, List.flatMap_cons]
  refine parseOne_block (fetches index) ?_
  have hnot : index ∉ List.range' 0 index := by simp
  rw [find_begin_skip fetches hnot, find_of_prefix ?_]
  · rw [Option.map_some, Nat.zero_add]
  · exact ⟨_, by simp only [block, List.append_assoc, List.cons_append, List.nil_append]; rfl⟩

/-- Every fetch is reported as it was exactly if every fetch succeeds. -/
theorem truthful_iff (values : List Char → List Char) (urls : List Url) (timeout : Int) (fetches : Nat → Fetch) :
    Truthful values urls timeout fetches ↔ ∀ index < urls.length, (fetches index).status = 0 := by
  have hparsed : parseHttpProbeOutput (logFrom fetches 0 urls.length) urls.length =
      (List.range urls.length).map fun index => (true, Python.trim (fetches index).output) :=
    List.map_congr_left fun index hindex => parseOne_log fetches (List.mem_range.1 hindex)
  rw [Truthful, run_script]
  simp only [Option.some.injEq, exists_eq_left', hparsed, List.map_inj_left, List.mem_range, resultOf, Prod.mk.injEq,
    and_true, eq_comm (a := true), decide_eq_true_eq]

/-! ## A refused connection -/

def keycloakUrl : Url := ⟨"http://keycloak:8080/".toList, by decide⟩

theorem beginMarker_notInfix_newline (index : Nat) : ¬ beginMarker index ++ ['\n'] <:+: [] ++ ['\n'] := fun h => by
  have hlength := h.length_le
  simp [beginMarker] at hlength
  omega

theorem endMarker_notInfix_nil (index : Nat) : ¬ endMarker index <:+: [] := fun h => by
  have hlength := h.length_le
  simp [endMarker] at hlength

/-- `wget` prints nothing and exits with 1. -/
def refused : Fetch := ⟨⟨1, []⟩, beginMarker_notInfix_newline, endMarker_notInfix_nil⟩

/-- The log says 0, and the probe is reported as a success. -/
theorem refused_reported_as_success :
    run (environment (fun _ => []) fun _ => refused) (buildHttpProbeScript [keycloakUrl.text] 5) =
      some "PROBE-HTTP-BEGIN 0\n\nPROBE-HTTP-END 0 0\n".toList ∧
    parseHttpProbeOutput "PROBE-HTTP-BEGIN 0\n\nPROBE-HTTP-END 0 0\n".toList 1 = [(true, [])] ∧
    ¬ ∀ (values : List Char → List Char) (urls : List Url) (timeout : Int) (fetches : Nat → Fetch),
      Truthful values urls timeout fetches := by
  have hlog : run (environment (fun _ => []) fun _ => refused) (buildHttpProbeScript [keycloakUrl.text] 5) =
      some "PROBE-HTTP-BEGIN 0\n\nPROBE-HTTP-END 0 0\n".toList := by decide +kernel
  have hparsed : parseHttpProbeOutput "PROBE-HTTP-BEGIN 0\n\nPROBE-HTTP-END 0 0\n".toList 1 = [(true, [])] := by
    decide +kernel
  refine ⟨hlog, hparsed, fun hall => ?_⟩
  obtain ⟨log, hrun, htruth⟩ := hall (fun _ => []) [keycloakUrl] 5 fun _ => refused
  have hsame : some log = some "PROBE-HTTP-BEGIN 0\n\nPROBE-HTTP-END 0 0\n".toList := hrun.symm.trans hlog
  cases hsame
  exact absurd (hparsed.symm.trans htruth) (by decide)

end Probes

end TxPlatform
