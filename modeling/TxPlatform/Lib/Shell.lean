/-!
# A fragment of the POSIX shell

A script is a list of commands, separated by `;` or newlines. A command is a list of words, separated
by blanks. A word is made of plain characters and of texts between double quotes, in which `$` names
a parameter. Other operators and quotes, escapes and substitutions are not part of the fragment and
are not parsed.

`echo` is built in and always succeeds. Every other command is external: the environment says how it
exits and what it prints. `$?` is the exit status of the last command. `parse_scriptText` is the law of
the syntax: what is written as a script reads back as its commands.
-/

namespace TxPlatform

namespace Shell

/-! ## Syntax -/

inductive Segment where
  | plain (c : Char)
  | quoted (text : List Char)
  deriving DecidableEq

abbrev Word := List Segment
abbrev Command := List Word

/-- The characters that stand for themselves outside quotes, wherever they are. -/
def isPlain (c : Char) : Bool := c.isAlphanum || c ∈ "-_./:,+@%".toList

/-- Between double quotes: no escape and no substitution. -/
def quotable : List Char → Bool
  | [] => true
  | c :: text => c ≠ '"' ∧ c ≠ '\\' ∧ c ≠ Char.ofNat 96 ∧
      ¬ (c = '$' ∧ (text.head? = some '(' ∨ text.head? = some '{')) ∧ quotable text

/-- What has been read: commands, the words of the current one, and the word and the quoted text
that are open. -/
structure Reader where
  commands : List Command := []
  words : Command := []
  word : Option Word := none
  quoted : Option (List Char) := none

namespace Reader

def endWord (reader : Reader) : Reader :=
  match reader.word with
  | none => reader
  | some word => { reader with words := reader.words ++ [word], word := none }

def endCommand (reader : Reader) : Reader :=
  let reader := reader.endWord
  if reader.words = [] then reader
  else { reader with commands := reader.commands ++ [reader.words], words := [] }

def addSegment (reader : Reader) (segment : Segment) : Reader :=
  { reader with word := some (reader.word.getD [] ++ [segment]) }

def step (reader : Reader) (c : Char) : Option Reader :=
  match reader.quoted with
  | some text =>
    if c ≠ '"' then some { reader with quoted := some (text ++ [c]) }
    else if quotable text then some { reader.addSegment (.quoted text) with quoted := none }
    else none
  | none =>
    if c = '"' then some { reader with quoted := some [] }
    else if c = ' ' then some reader.endWord
    else if c = '\n' then some reader.endCommand
    else if c = ';' then if reader.endWord.words = [] then none else some reader.endCommand
    else if isPlain c then some (reader.addSegment (.plain c))
    else none

end Reader

def parse (text : List Char) : Option (List Command) :=
  match text.foldlM Reader.step {} with
  | none => none
  | some reader => if reader.quoted = none then some reader.endCommand.commands else none

/-! ## Expansion -/

def isNameStart (c : Char) : Bool := c.isAlpha || c = '_'

def isNameChar (c : Char) : Bool := c.isAlphanum || c = '_'

def isSpecial (c : Char) : Bool := c ∈ "?#@*-$!0123456789".toList

/-- Whether a character goes on with the name of a parameter. -/
def continues (name : List Char) (c : Char) : Bool :=
  match name with
  | [] => isNameStart c || isSpecial c
  | first :: _ => isNameStart first && isNameChar c

/-- A `$` without a name is a `$`. -/
def parameter (lookup : List Char → List Char) (name : List Char) : List Char :=
  if name = [] then ['$'] else lookup name

/-- Quoted text with its parameters replaced; `name` is the one being read. -/
def expand (lookup : List Char → List Char) : Option (List Char) → List Char → List Char
  | none, [] => []
  | some name, [] => parameter lookup name
  | none, c :: text => if c = '$' then expand lookup (some []) text else c :: expand lookup none text
  | some name, c :: text =>
    if continues name c then expand lookup (some (name ++ [c])) text
    else parameter lookup name ++
      (if c = '$' then expand lookup (some []) text else c :: expand lookup none text)

def Segment.expand (lookup : List Char → List Char) : Segment → List Char
  | .plain c => [c]
  | .quoted text => Shell.expand lookup none text

def expandWord (lookup : List Char → List Char) (word : Word) : List Char := word.flatMap (·.expand lookup)

/-! ## Execution -/

structure Outcome where
  status : Nat
  output : List Char

/-- The values of the parameters, and what the external commands of a run do, one after the other. -/
structure Environment where
  values : List Char → List Char
  external : Nat → Outcome

structure State where
  status : Nat := 0
  externals : Nat := 0
  output : List Char := []

def lookup (environment : Environment) (state : State) (name : List Char) : List Char :=
  if name = ['?'] then Nat.toDigits 10 state.status else environment.values name

def execute (environment : Environment) (state : State) (command : Command) : State :=
  match command.map (expandWord (lookup environment state)) with
  | [] => state
  | name :: arguments =>
    if name = "echo".toList then
      { state with status := 0, output := state.output ++ ([' '].intercalate arguments ++ ['\n']) }
    else
      let outcome := environment.external state.externals
      { status := outcome.status, externals := state.externals + 1, output := state.output ++ outcome.output }

def executeAll (environment : Environment) (commands : List Command) (state : State) : State :=
  commands.foldl (execute environment) state

/-- The output of a script; `none` is outside the fragment. -/
def run (environment : Environment) (text : List Char) : Option (List Char) :=
  (parse text).map fun commands => (executeAll environment commands {}).output

/-! ## Writing scripts -/

/-- A word as a script writes it. -/
inductive Argument where
  | plain (text : List Char)
  | quoted (text : List Char)

namespace Argument

def text : Argument → List Char
  | plain text => text
  | quoted text => '"' :: (text ++ ['"'])

def word : Argument → Word
  | plain text => text.map .plain
  | quoted text => [.quoted text]

/-- Something to read, and it reads as it is. -/
def Valid : Argument → Prop
  | plain text => text ≠ [] ∧ ∀ c ∈ text, isPlain c = true
  | quoted text => quotable text = true

end Argument

def commandText (command : List Argument) : List Char := [' '].intercalate (command.map (·.text))

def lineText (line : List (List Argument)) : List Char := [';', ' '].intercalate (line.map commandText)

def scriptText (lines : List (List (List Argument))) : List Char := ['\n'].intercalate (lines.map lineText)

/-! ## What is written reads back -/

def ValidCommand (command : List Argument) : Prop := command ≠ [] ∧ ∀ argument ∈ command, argument.Valid

def ValidLine (line : List (List Argument)) : Prop := line ≠ [] ∧ ∀ command ∈ line, ValidCommand command

section Read
variable {commands : List Command} {words : Command}

theorem quotable_ne_quote : ∀ {text : List Char}, quotable text = true → ∀ c ∈ text, c ≠ '"'
  | [], _ => by simp
  | d :: text, h => by
    simp only [quotable, decide_eq_true_eq] at h
    rintro c (_ | ⟨_, hc⟩)
    · exact h.1
    · exact quotable_ne_quote h.2.2.2.2 c hc

theorem read_quotedText (word : Option Word) (text : List Char) (h : ∀ c ∈ text, c ≠ '"') (read : List Char) :
    text.foldlM Reader.step ⟨commands, words, word, some read⟩ = some ⟨commands, words, word, some (read ++ text)⟩ := by
  induction text generalizing read with
  | nil => simp
  | cons c text ih =>
    have hc : c ≠ '"' := h c (by simp)
    rw [List.foldlM_cons]
    simp only [Reader.step, ne_eq, hc, not_false_eq_true, if_true, Option.bind_eq_bind, Option.bind_some]
    rw [ih (fun d hd => h d (by simp [hd])), List.append_assoc, List.singleton_append]

theorem step_plain {c : Char} (h : isPlain c = true) (word : Option Word) :
    Reader.step ⟨commands, words, word, none⟩ c = some ⟨commands, words, some (word.getD [] ++ [.plain c]), none⟩ := by
  have hquote : c ≠ '"' := fun hc => by subst hc; exact absurd h (by decide)
  have hblank : c ≠ ' ' := fun hc => by subst hc; exact absurd h (by decide)
  have hline : c ≠ '\n' := fun hc => by subst hc; exact absurd h (by decide)
  have hsemi : c ≠ ';' := fun hc => by subst hc; exact absurd h (by decide)
  simp only [Reader.step, hquote, hblank, hline, hsemi, h, if_true, if_false]
  rfl

theorem read_plainText (text : List Char) (h : ∀ c ∈ text, isPlain c = true) (word : Word) :
    text.foldlM Reader.step ⟨commands, words, some word, none⟩ =
      some ⟨commands, words, some (word ++ text.map .plain), none⟩ := by
  induction text generalizing word with
  | nil => simp
  | cons c text ih =>
    rw [List.foldlM_cons, step_plain (h c (by simp))]
    simp only [Option.getD_some, Option.bind_eq_bind, Option.bind_some]
    rw [ih (fun d hd => h d (by simp [hd])), List.append_assoc, List.singleton_append, List.map_cons]

theorem read_argument {argument : Argument} (h : argument.Valid) :
    argument.text.foldlM Reader.step ⟨commands, words, none, none⟩ =
      some ⟨commands, words, some argument.word, none⟩ := by
  cases argument with
  | plain text =>
    obtain ⟨hne, hplain⟩ := h
    cases text with
    | nil => exact absurd rfl hne
    | cons c text =>
      rw [Argument.text, List.foldlM_cons, step_plain (hplain c (by simp))]
      simp only [Option.bind_eq_bind, Option.bind_some]
      rw [read_plainText text fun d hd => hplain d (by simp [hd])]
      rfl
  | quoted text =>
    have hquotable : quotable text = true := h
    rw [Argument.text, List.foldlM_cons, Reader.step]
    simp only [if_true, Option.bind_eq_bind, Option.bind_some]
    rw [List.foldlM_append, read_quotedText none text (quotable_ne_quote h)]
    simp only [List.nil_append, Option.bind_eq_bind, Option.bind_some, List.foldlM_cons, List.foldlM_nil,
      Reader.step, ne_eq, not_true_eq_false, if_false, hquotable, if_true]
    rfl

/-- The last word of a command is still open. -/
theorem read_command (commands : List Command) : ∀ {command : List Argument} (words : Command), ValidCommand command →
    ∃ init last, (commandText command).foldlM Reader.step ⟨commands, words, none, none⟩ =
      some ⟨commands, words ++ init, some last, none⟩ ∧ init ++ [last] = command.map (·.word)
  | [], _, h => absurd rfl h.1
  | [argument], words, h => by
    refine ⟨[], argument.word, ?_, rfl⟩
    simp only [commandText, List.map_cons, List.map_nil, List.intercalate_singleton, List.append_nil]
    exact read_argument (h.2 argument (by simp))
  | argument :: next :: rest, words, h => by
    obtain ⟨init, last, hread, hwords⟩ := read_command commands (words ++ [argument.word])
      (show ValidCommand (next :: rest) from ⟨List.cons_ne_nil _ _, fun a ha => h.2 a (List.mem_cons_of_mem _ ha)⟩)
    refine ⟨argument.word :: init, last, ?_, by rw [List.cons_append, hwords]; rfl⟩
    have htext : commandText (argument :: next :: rest) = argument.text ++ ' ' :: commandText (next :: rest) := by
      simp [commandText]
    rw [htext, List.foldlM_append, read_argument (h.2 argument (by simp))]
    simp only [Option.bind_eq_bind, Option.bind_some, List.foldlM_cons]
    have hstep : Reader.step ⟨commands, words, some argument.word, none⟩ ' ' =
        some ⟨commands, words ++ [argument.word], none, none⟩ := rfl
    rw [hstep]
    simpa using hread

/-- What a `;` or a newline closes. -/
theorem close_command {init : Command} {last : Word} {command : List Argument}
    (h : init ++ [last] = command.map (·.word)) :
    Reader.step ⟨commands, init, some last, none⟩ ';' = some ⟨commands ++ [command.map (·.word)], [], none, none⟩ ∧
      Reader.endCommand ⟨commands, init, some last, none⟩ = ⟨commands ++ [command.map (·.word)], [], none, none⟩ := by
  have hword : Reader.endWord ⟨commands, init, some last, none⟩ = ⟨commands, command.map (·.word), none, none⟩ := by
    rw [← h]
    rfl
  have hne : command.map (·.word) ≠ [] := by
    rw [← h]
    simp
  have hend : Reader.endCommand ⟨commands, init, some last, none⟩ =
      ⟨commands ++ [command.map (·.word)], [], none, none⟩ := by
    rw [Reader.endCommand, hword]
    simp only [hne, if_false]
  refine ⟨?_, hend⟩
  rw [Reader.step]
  simp only [hword, hend, hne, if_false]
  rfl

theorem read_line : ∀ {line : List (List Argument)} (commands : List Command), ValidLine line →
    ∃ reader, (lineText line).foldlM Reader.step ⟨commands, [], none, none⟩ = some reader ∧ reader.quoted = none ∧
      reader.endCommand = ⟨commands ++ line.map (·.map (·.word)), [], none, none⟩
  | [], _, h => absurd rfl h.1
  | [command], commands, h => by
    obtain ⟨init, last, hread, hwords⟩ := read_command commands [] (h.2 command (by simp))
    refine ⟨_, ?_, rfl, (close_command hwords).2⟩
    simpa [lineText] using hread
  | command :: next :: rest, commands, h => by
    obtain ⟨init, last, hread, hwords⟩ := read_command commands [] (h.2 command (by simp))
    obtain ⟨reader, hrest, hquoted, hend⟩ := read_line (commands ++ [command.map (·.word)])
      (show ValidLine (next :: rest) from ⟨List.cons_ne_nil _ _, fun c hc => h.2 c (List.mem_cons_of_mem _ hc)⟩)
    refine ⟨reader, ?_, hquoted, by rw [hend]; simp⟩
    have htext : lineText (command :: next :: rest) = commandText command ++ ';' :: ' ' :: lineText (next :: rest) := by
      simp [lineText]
    rw [htext, List.foldlM_append, hread, List.nil_append]
    simp only [Option.bind_eq_bind, Option.bind_some, List.foldlM_cons, (close_command hwords).1]
    exact hrest

theorem read_script : ∀ {lines : List (List (List Argument))} (commands : List Command), lines ≠ [] →
    (∀ line ∈ lines, ValidLine line) →
    ∃ reader, (scriptText lines).foldlM Reader.step ⟨commands, [], none, none⟩ = some reader ∧
      reader.quoted = none ∧
      reader.endCommand = ⟨commands ++ lines.flatten.map (·.map (·.word)), [], none, none⟩
  | [], _, h, _ => absurd rfl h
  | [line], commands, _, h => by
    obtain ⟨reader, hread, hquoted, hend⟩ := read_line commands (h line (by simp))
    exact ⟨reader, by simpa [scriptText] using hread, hquoted, by simpa using hend⟩
  | line :: next :: rest, commands, _, h => by
    obtain ⟨first, hread, hquoted, hend⟩ := read_line commands (h line (by simp))
    obtain ⟨reader, hrest, hquotedRest, hendRest⟩ := read_script
      (commands ++ line.map (·.map (·.word))) (List.cons_ne_nil next rest) fun l hl => h l (List.mem_cons_of_mem _ hl)
    refine ⟨reader, ?_, hquotedRest, by rw [hendRest]; simp⟩
    have htext : scriptText (line :: next :: rest) = lineText line ++ '\n' :: scriptText (next :: rest) := by
      simp [scriptText]
    have hstep : first.step '\n' = some first.endCommand := by
      rw [Reader.step, hquoted]
      rfl
    rw [htext, List.foldlM_append, hread]
    simp only [Option.bind_eq_bind, Option.bind_some, List.foldlM_cons, hstep, hend]
    exact hrest

end Read

/-- A script reads back as its commands. -/
theorem parse_scriptText {lines : List (List (List Argument))} (h : ∀ line ∈ lines, ValidLine line) :
    parse (scriptText lines) = some (lines.flatten.map (·.map (·.word))) := by
  cases lines with
  | nil => rfl
  | cons line lines =>
    obtain ⟨reader, hread, hquoted, hend⟩ := read_script [] (List.cons_ne_nil line lines) h
    rw [parse, hread]
    simp only [hquoted, if_true, hend, List.nil_append]

/-- Characters without a meaning between quotes. -/
def isInert (c : Char) : Bool := c ≠ '"' ∧ c ≠ '\\' ∧ c ≠ Char.ofNat 96 ∧ c ≠ '$'

theorem quotable_append : ∀ {text rest : List Char}, (∀ c ∈ text, isInert c = true) → quotable rest = true →
    quotable (text ++ rest) = true
  | [], _, _, h => h
  | c :: text, rest, htext, h => by
    have hc := htext c (by simp)
    simp only [isInert, decide_eq_true_eq] at hc
    rw [List.cons_append, quotable, decide_eq_true_eq]
    exact ⟨hc.1, hc.2.1, hc.2.2.1, fun hdollar => hc.2.2.2 hdollar.1,
      quotable_append (fun d hd => htext d (List.mem_cons_of_mem _ hd)) h⟩

theorem isInert_of_isPlain {c : Char} (h : isPlain c = true) : isInert c = true := by
  rw [isInert, decide_eq_true_eq]
  refine ⟨?_, ?_, ?_, ?_⟩ <;> rintro rfl <;> exact absurd h (by decide)

/-! ## What a word expands to -/

section Expand
variable (lookup : List Char → List Char)

theorem expand_of_notMem : ∀ {text : List Char}, '$' ∉ text → expand lookup none text = text
  | [], _ => rfl
  | c :: text, h => by
    have hc : c ≠ '$' := fun hc => h (by simp [hc])
    rw [expand, if_neg hc, expand_of_notMem fun hmem => h (List.mem_cons_of_mem _ hmem)]

/-- Text in front of a parameter. -/
theorem expand_append_status : ∀ {text : List Char}, '$' ∉ text →
    expand lookup none (text ++ ['$', '?']) = text ++ lookup ['?']
  | [], _ => by simp [expand, continues, isSpecial, parameter]
  | c :: text, h => by
    have hc : c ≠ '$' := fun hc => h (by simp [hc])
    rw [List.cons_append, expand, if_neg hc,
      expand_append_status fun hmem => h (List.mem_cons_of_mem _ hmem), List.cons_append]

theorem expandWord_plain (text : List Char) : expandWord lookup (Argument.plain text).word = text := by
  rw [Argument.word, expandWord, List.flatMap_map]
  exact List.flatMap_singleton' text

theorem expandWord_quoted (text : List Char) :
    expandWord lookup (Argument.quoted text).word = expand lookup none text := List.flatMap_singleton ..

end Expand

/-! ## What a command does -/

section Execute
variable (environment : Environment) (state : State) (arguments : List Argument)

theorem execute_echo :
    execute environment state ((Argument.plain "echo".toList :: arguments).map (·.word)) =
      { state with
        status := 0
        output := state.output ++
          ([' '].intercalate (arguments.map fun argument => expandWord (lookup environment state) argument.word) ++
            ['\n']) } := by
  simp only [execute, List.map_cons, expandWord_plain, if_true, List.map_map, Function.comp_def]

theorem execute_external {name : List Char} (h : name ≠ "echo".toList) :
    execute environment state ((Argument.plain name :: arguments).map (·.word)) =
      ⟨(environment.external state.externals).status, state.externals + 1,
        state.output ++ (environment.external state.externals).output⟩ := by
  simp only [execute, List.map_cons, expandWord_plain, h, if_false]

end Execute

end Shell

end TxPlatform
