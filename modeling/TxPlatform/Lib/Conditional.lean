import TxPlatform.Lib.Shell

/-!
# `if` in a shell script

The shell takes the first word of a command for a keyword when it is one, so the commands of a script
(`Shell.parse`) are put together to statements by their first words: `if` with its condition, `then`, `else`
and `fi`. A condition or branch is a list of plain commands; other compound commands and an `if` without
`else` are not part of the fragment. `statements_conditionals` is the law of the syntax: conditionals read
back as they were written; `runScript_conditionals` runs what was written.
-/

namespace TxPlatform

namespace Shell

/-! ## Syntax -/

def plainWord (text : String) : Word := text.toList.map .plain

/-- The words that begin or end a compound command. -/
def keywords : List Word :=
  ["if", "then", "else", "elif", "fi", "do", "done", "case", "esac", "while", "until", "for"].map plainWord

inductive Statement where
  | command (command : Command)
  | conditional (condition yes no : List Command)
  deriving DecidableEq

/-- The commands up to one that begins with the keyword, and what is behind the keyword. -/
def upTo (keyword : Word) : List Command → Option (List Command × Command × List Command)
  | [] | [] :: _ => none
  | (word :: words) :: commands =>
    if word = keyword then some ([], words, commands)
    else if word ∈ keywords then none
    else (upTo keyword commands).map fun (before, behind) => ((word :: words) :: before, behind)

/-- What follows a keyword in its line is a command. -/
def withRest (words : Command) (commands : List Command) : List Command :=
  if words = [] then commands else words :: commands

/-- Every statement takes a command. -/
def statements : Nat → List Command → Option (List Statement)
  | _, [] => some []
  | 0, _ :: _ => none
  | _ + 1, [] :: _ => none
  | fuel + 1, (word :: words) :: commands =>
    if word = plainWord "if" then do
      let (condition, thenWords, commands) ← upTo (plainWord "then") (withRest words commands)
      let (yes, elseWords, commands) ← upTo (plainWord "else") (withRest thenWords commands)
      let (no, fiWords, commands) ← upTo (plainWord "fi") (withRest elseWords commands)
      if condition = [] ∨ yes = [] ∨ no = [] ∨ fiWords ≠ [] then none
      else (statements fuel commands).map (.conditional condition yes no :: ·)
    else if word ∈ keywords then none
    else (statements fuel commands).map (.command (word :: words) :: ·)

/-! ## Execution -/

def Statement.execute (environment : Environment) (state : State) : Statement → State
  | .command words => Shell.execute environment state words
  | .conditional condition yes no =>
    let state := executeAll environment condition state
    executeAll environment (if state.status = 0 then yes else no) state

/-- The output of a script with conditionals; `none` is outside the fragment. -/
def runScript (environment : Environment) (text : List Char) : Option (List Char) := do
  let commands ← parse text
  let statements ← statements commands.length commands
  return (statements.foldl (Statement.execute environment) {}).output

/-! ## Writing conditionals -/

/-- A condition and two branches of one command each, as a script writes them on one line. -/
structure Conditional where
  condition : List Argument
  yes : List Argument
  no : List Argument

namespace Conditional

def line (conditional : Conditional) : List (List Argument) :=
  [.plain "if".toList :: conditional.condition, .plain "then".toList :: conditional.yes,
    .plain "else".toList :: conditional.no, [.plain "fi".toList]]

def statement (conditional : Conditional) : Statement :=
  .conditional [conditional.condition.map (·.word)] [conditional.yes.map (·.word)] [conditional.no.map (·.word)]

/-- Each command begins with a word that is no keyword. -/
def Valid (conditional : Conditional) : Prop :=
  ∀ command ∈ [conditional.condition, conditional.yes, conditional.no],
    ValidCommand command ∧ ∀ argument ∈ command.head?, argument.word ∉ keywords

end Conditional

/-- One command and the keyword behind it. -/
theorem upTo_command {keyword : Word} (hkeyword : keyword ∈ keywords) {command : Command} (hne : command ≠ [])
    (h : ∀ word ∈ command.head?, word ∉ keywords) (words : Command) (commands : List Command) :
    upTo keyword (withRest command ((keyword :: words) :: commands)) = some ([command], words, commands) := by
  cases command with
  | nil => exact absurd rfl hne
  | cons word command =>
    have hword := h word rfl
    have hother : word ≠ keyword := fun heq => hword (heq ▸ hkeyword)
    simp [withRest, upTo, hother, hword]

theorem validCommand_keyword (keyword : String)
    (hkeyword : keyword.toList ≠ [] ∧ keyword.toList.all isPlain = true) {command : List Argument}
    (h : ∀ argument ∈ command, argument.Valid) : ValidCommand (.plain keyword.toList :: command) :=
  ⟨List.cons_ne_nil _ _, List.forall_mem_cons.2 ⟨⟨hkeyword.1, List.all_eq_true.1 hkeyword.2⟩, h⟩⟩

theorem validLine_conditional {conditional : Conditional} (h : conditional.Valid) : ValidLine conditional.line := by
  have hcondition := validCommand_keyword "if" (by decide) (h conditional.condition (by simp)).1.2
  have hyes := validCommand_keyword "then" (by decide) (h conditional.yes (by simp)).1.2
  have hno := validCommand_keyword "else" (by decide) (h conditional.no (by simp)).1.2
  have hend := validCommand_keyword "fi" (by decide) (List.forall_mem_nil _)
  exact ⟨List.cons_ne_nil _ _, List.forall_mem_cons.2 ⟨hcondition, List.forall_mem_cons.2 ⟨hyes, List.forall_mem_cons.2
    ⟨hno, List.forall_mem_singleton.2 hend⟩⟩⟩⟩

/-- Conditionals read back as they were written. -/
theorem statements_conditionals {conditionals : List Conditional} (h : ∀ conditional ∈ conditionals, conditional.Valid)
    {fuel : Nat} (hfuel : conditionals.length ≤ fuel) :
    statements fuel ((conditionals.map (·.line)).flatten.map (·.map (·.word))) = some (conditionals.map (·.statement)) := by
  induction conditionals generalizing fuel with
  | nil => cases fuel <;> rfl
  | cons conditional conditionals ih =>
    obtain ⟨fuel, rfl⟩ : ∃ n, fuel = n + 1 := ⟨fuel - 1, by rw [List.length_cons] at hfuel; omega⟩
    have hrest := ih (fun other hmem => h other (List.mem_cons_of_mem conditional hmem)) (Nat.le_of_succ_le_succ hfuel)
    have hvalid := h conditional List.mem_cons_self
    have hone : ∀ command ∈ [conditional.condition, conditional.yes, conditional.no], ∀ keyword ∈ keywords, ∀ words commands,
        upTo keyword (withRest (command.map (·.word)) ((keyword :: words) :: commands)) =
          some ([command.map (·.word)], words, commands) := by
      intro command hmem keyword hkeyword words commands
      obtain ⟨hcommand, hfirst⟩ := hvalid command hmem
      refine upTo_command hkeyword (by simpa using hcommand.1) (fun word hword => ?_) words commands
      rw [List.head?_map, Option.mem_def] at hword
      obtain ⟨argument, hargument, rfl⟩ := Option.map_eq_some_iff.1 hword
      exact hfirst argument hargument
    have hcondition := hone conditional.condition (by simp) (plainWord "then") (by decide)
    have hyes := hone conditional.yes (by simp) (plainWord "else") (by decide)
    have hno := hone conditional.no (by simp) (plainWord "fi") (by decide)
    have hline : ((conditional :: conditionals).map (·.line)).flatten.map (·.map (·.word)) =
        (plainWord "if" :: conditional.condition.map (·.word)) :: (plainWord "then" :: conditional.yes.map (·.word)) ::
          (plainWord "else" :: conditional.no.map (·.word)) :: [plainWord "fi"] ::
          (conditionals.map (·.line)).flatten.map (·.map (·.word)) := rfl
    rw [hline, statements, if_pos rfl]
    simp only [Option.bind_eq_bind, hcondition, Option.bind_some, hyes, hno, List.cons_ne_nil, ne_eq, not_true_eq_false,
      or_self, if_false, hrest, Option.map_some]
    rfl

theorem length_le_commands (conditionals : List Conditional) :
    conditionals.length ≤ ((conditionals.map (·.line)).flatten.map (·.map (·.word))).length := by
  induction conditionals with
  | nil => exact Nat.le_refl _
  | cons conditional conditionals ih =>
    have hline : conditional.line.length = 4 := rfl
    rw [List.length_map] at ih
    rw [List.map_cons, List.flatten_cons, List.length_map, List.length_append, List.length_cons, hline]
    omega

/-- A script of conditionals runs them one after the other. -/
theorem runScript_conditionals {conditionals : List Conditional} (h : ∀ conditional ∈ conditionals, conditional.Valid)
    (environment : Environment) : runScript environment (scriptText (conditionals.map (·.line))) =
      some ((conditionals.map (·.statement)).foldl (Statement.execute environment) {}).output := by
  have hparse := parse_scriptText (List.forall_mem_map.2 fun conditional hmem => validLine_conditional (h conditional hmem))
  rw [runScript, hparse]
  simp only [Option.bind_eq_bind, Option.bind_some, statements_conditionals h (length_le_commands conditionals)]
  rfl

end Shell

end TxPlatform
