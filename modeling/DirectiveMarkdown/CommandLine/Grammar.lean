import DirectiveMarkdown.Text.Basic

/-! Reading the words of a command line against the options that a command has. -/
namespace DirectiveMarkdown.CommandLine

/-- What an option does to the settings read so far: a flag by itself, another with its value. There
is no result where the option may not stand or the value is not one of its own. -/
inductive Effect (σ : Type) where
  | flag (set : σ → Option σ)
  | valued (set : Text → σ → Option σ)

/-- An option with its long name, after two hyphens, and its letter, after one. -/
structure Switch (σ : Type) where
  name : Text
  letter : Option Char := none
  effect : Effect σ

/-- The options of a command, and what it does with the words that are none. -/
structure Grammar (σ : Type) where
  switches : List (Switch σ)
  operand : Text → σ → Option σ

/-- Why reading stopped: a word out of place, or a request for help. -/
inductive Stop where
  | misuse
  | help
deriving DecidableEq

namespace Grammar

variable {σ : Type}

/-- The result of an option, if it may stand. -/
def orMisuse : Option σ → Except Stop σ
  | some settings => .ok settings
  | none => .error .misuse

/-- Settings read so far, and what the next word is the value of, if an option waits for one. -/
structure Progress (σ : Type) where
  settings : σ
  waiting : Option (Text → σ → Option σ) := none

/-- Reads a long option, with its value if an equals sign stands in the word. -/
def readLong (grammar : Grammar σ) (word : Text) (settings : σ) : Except Stop (Progress σ) :=
  let name := word.takeWhile (· ≠ '=')
  let value := (word.dropWhile (· ≠ '=')).tail?
  if name = text "help" ∧ value = none then .error .help
  else match grammar.switches.find? fun switch => switch.name == name with
    | none => .error .misuse
    | some switch =>
      match switch.effect, value with
      | .flag set, none => (orMisuse (set settings)).map fun settings => { settings }
      | .flag _, some _ => .error .misuse
      | .valued set, some value => (orMisuse (set value settings)).map fun settings => { settings }
      | .valued set, none => .ok { settings, waiting := some set }

/-- Reads the letters of one word. All that follows the letter of an option with a value is the
value, an equals sign in front of it apart. -/
def readLetters (grammar : Grammar σ) : Text → σ → Except Stop (Progress σ)
  | [], settings => .ok { settings }
  | letter :: rest, settings =>
    if letter = 'h' then .error .help
    else match grammar.switches.find? fun switch => switch.letter == some letter with
      | none => .error .misuse
      | some switch =>
        match switch.effect with
        | .flag set => do grammar.readLetters rest (← orMisuse (set settings))
        | .valued set =>
          match rest with
          | [] => .ok { settings, waiting := some set }
          | '=' :: value | value => (orMisuse (set value settings)).map fun settings => { settings }

def readOperands (grammar : Grammar σ) : List Text → σ → Except Stop σ
  | [], settings => .ok settings
  | word :: rest, settings => do
    grammar.readOperands rest (← orMisuse (grammar.operand word settings))

/-- Reads words. Behind two hyphens alone no word is an option. One hyphen alone is none. -/
def read (grammar : Grammar σ) : List Text → Progress σ → Except Stop σ
  | [], progress => if progress.waiting.isNone then .ok progress.settings else .error .misuse
  | word :: rest, ⟨settings, waiting⟩ =>
    match word, waiting with
    | ['-', '-'], none => grammar.readOperands rest settings
    | '-' :: '-' :: long, none => do grammar.read rest (← grammar.readLong long settings)
    | '-' :: letter :: more, none => do
      grammar.read rest (← grammar.readLetters (letter :: more) settings)
    | '-' :: _ :: _, some _ => .error .misuse
    | value, some set => do grammar.read rest { settings := ← orMisuse (set value settings) }
    | operand, none => do
      grammar.read rest { settings := ← orMisuse (grammar.operand operand settings) }

end Grammar

end DirectiveMarkdown.CommandLine
