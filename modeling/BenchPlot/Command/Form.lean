import BenchPlot.Decimal.Binary
import BenchPlot.Decimal.Reading
import BenchPlot.Text.Pieces

/-!
# Forms of arguments

How a list of arguments is read. A form tells which options and which positional arguments there are; each
of them says what it does to a draft of the result. An option is written `--name value`, `--name=value`,
or, where it has a letter, `-x value`, `-xvalue` or `-x=value`; an option without a value is a flag. Behind
`--` every argument is positional. A form with commands reads up to the name of a command, and the command
reads the rest.

A value is read when the next argument starts, so of several faults the one that is met first counts. A
word that no form knows is refused at once, whatever value still waits to be read.

Main definitions: `Form.read`, `Form.readBranches`.
-/

namespace BenchPlot

/-- Why arguments are no command, or what they ask for in place of one. -/
inductive UsageFault where
  | unknownArgument (argument : String)
  | unknownCommand (word : String)
  | missingArgument (name : String)
  | missingCommand
  | noArguments
  /-- A value that is absent, or not one of those that there are. -/
  | badValue (text : String)
  /-- A value that is no text of its kind. -/
  | unreadableValue (text : String)
  | unexpectedValue (argument : String)
  | conflict (name : String)
  | help
  | version
  deriving DecidableEq, Repr

/-- Whether what arguments ask for is an answer and no command. -/
def UsageFault.isAnswer : UsageFault → Bool
  | .help | .version => true
  | _ => false

/-- The exit code of a program that is given no command: answering is no failure. -/
def UsageFault.exitCode (fault : UsageFault) : Nat :=
  if fault.isAnswer then 0 else 2

/-- What is wrong with the arguments, in one line. -/
def UsageFault.message : UsageFault → String
  | .unknownArgument argument => s!"unexpected argument '{argument}'"
  | .unknownCommand word => s!"unrecognized subcommand '{word}'"
  | .missingArgument name => s!"the required argument '{name}' was not provided"
  | .missingCommand | .noArguments => "a subcommand is required"
  | .badValue text => s!"invalid value '{text}'"
  | .unreadableValue text => s!"unreadable value '{text}'"
  | .unexpectedValue argument => s!"unexpected value for '{argument}'"
  | .conflict name => s!"the argument '{name}' cannot be used here again"
  | .help => "help"
  | .version => "version"

/-! ## §1 Values -/

/-- How the text of a value is read. -/
abbrev ValueReader (τ : Type) := String → Except UsageFault τ

namespace ValueReader

/-- Any text. -/
def text : ValueReader String := .ok

/-- The path of a file, which is not empty. -/
def path : ValueReader String := fun s =>
  if s.isEmpty then .error (.badValue s) else .ok s

/-- An optional value. -/
def optional {τ : Type} (r : ValueReader τ) : ValueReader (Option τ) := fun s =>
  (r s).map some

/-- One of some words, each with what it stands for. -/
def choice {τ : Type} (words : List (String × τ)) : ValueReader τ := fun s =>
  match words.find? (·.1 == s) with
  | some w => .ok w.2
  | none => .error (.badValue s)

/-- A single character. -/
def character : ValueReader Char := fun s =>
  match s.toList with
  | [c] => .ok c
  | _ => .error (.unreadableValue s)

/-- A natural number below `2 ^ 64`. -/
def natural : ValueReader Nat := fun s =>
  let cs := match s.toList with | '+' :: rest => rest | cs => cs
  match Decimal.readNatural? cs with
  | some n => if n < UInt64.size then .ok n else .error (.unreadableValue s)
  | none => .error (.unreadableValue s)

/-- An integer of 64 bits. -/
def integer : ValueReader Int := fun s =>
  let (negative, cs) := Decimal.readSign s.toList
  match Decimal.readNatural? cs with
  | some n =>
    let i := Decimal.signed negative n
    if Decimal.int64Bounds.1 ≤ i ∧ i ≤ Decimal.int64Bounds.2 then .ok i
    else .error (.unreadableValue s)
  | none => .error (.unreadableValue s)

end ValueReader

/-! ## §2 Forms -/

/-- An argument with a value: whether it may be given more than once, and what a value does to the
    draft. -/
structure ValueArgument (α : Type) where
  name : String
  repeats : Bool
  take : String → α → Except UsageFault α

/-- An argument whose value is put into the draft. -/
def ValueArgument.once {α τ : Type} (name : String) (r : ValueReader τ) (put : τ → α → α) :
    ValueArgument α :=
  ⟨name, false, fun s a => (r s).map (put · a)⟩

/-- An argument that may be given many times; each value is put into the draft. -/
def ValueArgument.many {α τ : Type} (name : String) (r : ValueReader τ) (put : τ → α → α) :
    ValueArgument α :=
  ⟨name, true, fun s a => (r s).map (put · a)⟩

/-- An option of a form. -/
inductive FormOption (α : Type) where
  | value (letter : Option Char) (argument : ValueArgument α)
  | flag (name : String) (put : α → α)
  /-- An option that is answered at once. -/
  | answer (letter : Char) (name : String) (fault : UsageFault)

/-- The name of an option. -/
def FormOption.name {α : Type} : FormOption α → String
  | .value _ argument => argument.name
  | .flag name _ => name
  | .answer _ name _ => name

/-- The letter of an option. -/
def FormOption.letter? {α : Type} : FormOption α → Option Char
  | .value letter _ => letter
  | .flag _ _ => none
  | .answer letter _ _ => some letter

/-- A positional argument. Only the last one of a form may repeat. -/
structure Positional (α : Type) where
  argument : ValueArgument α
  required : Bool

/-- The option that asks for help. -/
def FormOption.help {α : Type} : FormOption α :=
  .answer 'h' "help" .help

/-- A form: its options besides the one for help, its positional arguments in their order, the pairs of
    options that exclude each other, and the draft to start with. -/
structure Form (α : Type) where
  options : List (FormOption α)
  positionals : List (Positional α)
  exclusions : List (String × String)
  start : α

/-- A command of a form: its name, the names that may follow it after a request for help, and how it
    reads the arguments behind its name. -/
structure Branch (β : Type) where
  name : String
  inner : List String
  read : List String → Except UsageFault β

/-! ## §3 Reading arguments -/

/-- What an argument looks like. -/
inductive ArgumentShape where
  | escape
  | long (name : String) (value : Option String)
  | letters (cs : List Char)
  | word
  deriving DecidableEq, Repr

/-- The look of an argument. A single `-` is a word. -/
def ArgumentShape.of (argument : String) : ArgumentShape :=
  match argument.toList with
  | ['-', '-'] => .escape
  | '-' :: '-' :: rest =>
    let name := rest.takeWhile (· != '=')
    .long (String.ofList name) (((rest.drop name.length).tail?).map String.ofList)
  | '-' :: c :: rest => .letters (c :: rest)
  | _ => .word

/-- How far arguments have been read: the draft, the names of the arguments that were given, the argument
    whose values wait to be read, and the positional arguments that are left. -/
structure FormProgress (α : Type) where
  draft : α
  given : List String
  pending : Option (ValueArgument α × List String)
  left : List (Positional α)

namespace FormProgress

variable {α : Type}

/-- Whether an option waits for its value. -/
def isWaiting (p : FormProgress α) : Bool :=
  p.pending.any fun w => w.2.isEmpty

/-- The progress with the values read that wait for it. -/
def settle (p : FormProgress α) : Except UsageFault (FormProgress α) :=
  match p.pending with
  | none => .ok p
  | some (a, values) =>
    if values.isEmpty then .error (.badValue "")
    else if !a.repeats && p.given.contains a.name then .error (.conflict a.name)
    else
      (values.foldlM (fun draft v => a.take v draft) p.draft).map fun draft =>
        { p with draft := draft, given := a.name :: p.given, pending := none }

/-- The progress with the values of a further argument waiting. -/
def await (p : FormProgress α) (a : ValueArgument α) (values : List String) :
    Except UsageFault (FormProgress α) :=
  p.settle.map fun p => { p with pending := some (a, values) }

/-- The progress behind a flag. -/
def raise (p : FormProgress α) (name : String) (put : α → α) : Except UsageFault (FormProgress α) :=
  match p.settle with
  | .error fault => .error fault
  | .ok p =>
    if p.given.contains name then .error (.conflict name)
    else .ok { p with draft := put p.draft, given := name :: p.given }

/-- The progress behind an option that stands alone, or the answer to it. -/
def takeOption (p : FormProgress α) : FormOption α → Except UsageFault (FormProgress α)
  | .value _ a => p.await a []
  | .flag name put => p.raise name put
  | .answer _ _ fault => p.settle.bind fun _ => .error fault

/-- The progress behind an option with a value attached to it. -/
def takeAttached (p : FormProgress α) (value : String) (o : FormOption α) :
    Except UsageFault (FormProgress α) :=
  match o with
  | .value _ a => (p.await a [value]).bind settle
  | _ => .error (.unexpectedValue o.name)

/-- The progress behind a positional argument, if one is left. -/
def takePositional? (p : FormProgress α) (argument : String) :
    Option (Except UsageFault (FormProgress α)) :=
  match p.left with
  | [] => none
  | next :: rest =>
    some <| (p.await next.argument [argument]).map fun p =>
      { p with left := if next.argument.repeats then p.left else rest }

end FormProgress

namespace Form

variable {α β : Type}

/-- All options of a form. -/
def allOptions (f : Form α) : List (FormOption α) :=
  f.options ++ [.help]

/-- The progress behind a row of letters. What stands behind the letter of an option with a value is the
    value. -/
def takeLetters (f : Form α) (p : FormProgress α) : List Char → Except UsageFault (FormProgress α)
  | [] => .ok p
  | c :: rest =>
    match f.allOptions.find? (·.letter? == some c) with
    | none => .error (.unknownArgument (String.ofList ['-', c]))
    | some (.value letter a) =>
      match rest with
      | [] => p.takeOption (.value letter a)
      | '=' :: value => p.takeAttached (String.ofList value) (.value letter a)
      | value => p.takeAttached (String.ofList value) (.value letter a)
    | some o =>
      match p.takeOption o with
      | .error fault => .error fault
      | .ok p => f.takeLetters p rest

/-- The progress behind an option by its name. -/
def takeLong (f : Form α) (p : FormProgress α) (name : String) (value : Option String) :
    Except UsageFault (FormProgress α) :=
  match f.allOptions.find? (·.name == name) with
  | none => .error (.unknownArgument name)
  | some o =>
    match value with
    | none => p.takeOption o
    | some v => p.takeAttached v o

/-- The fault of a word for which there is no place, where there are commands with some names. -/
def strayFault (commands : List String) (escaped : Bool) (word : String) : UsageFault :=
  if commands.isEmpty || (escaped && commands.contains word) then .unknownArgument word
  else .unknownCommand word

/-- The progress behind a word. -/
def takeWord (commands : List String) (escaped : Bool) (p : FormProgress α) (word : String) :
    Except UsageFault (FormProgress α) :=
  (p.takePositional? word).getD (.error (strayFault commands escaped word))

/-- The progress behind an argument that is neither the name of a command nor `--`. -/
def takeArgument (f : Form α) (commands : List String) (p : FormProgress α) (argument : String) :
    Except UsageFault (FormProgress α) :=
  match ArgumentShape.of argument, p.pending with
  | .long name value, _ => f.takeLong p name value
  | .letters cs, _ => f.takeLetters p cs
  -- An option never is a value, even where one is waited for.
  | _, some (a, []) => .ok { p with pending := some (a, [argument]) }
  | _, _ => takeWord commands false p argument

/-- The progress behind all arguments up to the name of a command, that name, and the arguments behind
    it. -/
def scan (f : Form α) (commands : List String) (escaped : Bool) (p : FormProgress α) :
    List String → Except UsageFault (FormProgress α × Option (String × List String))
  | [] => .ok (p, none)
  | argument :: rest =>
    if escaped then
      match takeWord commands true p argument with
      | .error fault => .error fault
      | .ok p => f.scan commands true p rest
    -- A word behind an option that waits for its value is the value, whatever it names.
    else if !p.isWaiting && commands.contains argument then .ok (p, some (argument, rest))
    else if ArgumentShape.of argument = .escape then f.scan commands true p rest
    else
      match f.takeArgument commands p argument with
      | .error fault => .error fault
      | .ok p => f.scan commands false p rest

/-- The progress before the first argument. -/
def progress (f : Form α) : FormProgress α :=
  ⟨f.start, [], none, f.positionals⟩

/-- The result of a form whose arguments have all been read. -/
def finish (f : Form α) (p : FormProgress α) : Except UsageFault α :=
  match p.settle with
  | .error fault => .error fault
  | .ok p =>
    match f.exclusions.find? fun e => p.given.contains e.1 && p.given.contains e.2 with
    | some e => .error (.conflict e.1)
    | none =>
      match p.left.find? fun a => a.required && !p.given.contains a.argument.name with
      | some a => .error (.missingArgument a.argument.name)
      | none => .ok p.draft

/-- What arguments are by a form without commands. -/
def read (f : Form α) (arguments : List String) : Except UsageFault α :=
  match f.scan [] false f.progress arguments with
  | .error fault => .error fault
  | .ok (p, _) => f.finish p

/-! ## §4 Forms with commands -/

/-- The fault where the name of a command is missing. -/
def missingFault (p : FormProgress α) : UsageFault :=
  match p.settle with
  | .error fault => fault
  | .ok p => if p.given.isEmpty then .noArguments else .missingCommand

/-- The answer to a request for help with the names of a command and of a command of it. The word `help`
    is the name of a command wherever there are commands, and has no commands of its own. -/
def helpFault (branches : List (Branch β)) : List String → UsageFault
  | [] => .help
  | name :: rest =>
    match branches.find? (·.name == name), rest with
    | none, [] => if name = "help" then .help else .unknownCommand name
    | none, word :: _ => .unknownCommand (if name = "help" then word else name)
    | some _, [] => .help
    | some b, word :: more =>
      if b.inner.contains word then
        match more with
        | [] => .help
        | stray :: _ => .unknownCommand stray
      else .unknownCommand word

/-- What arguments are by a form with commands: what the form reads itself, and what the command reads.
    The faults of the command come first. -/
def readBranches (f : Form α) (branches : List (Branch β)) (arguments : List String) :
    Except UsageFault (α × β) :=
  match f.scan (branches.map Branch.name ++ ["help"]) false f.progress arguments with
  | .error fault => .error fault
  | .ok (p, none) => .error (missingFault p)
  | .ok (p, some (name, rest)) =>
    match branches.find? (·.name == name) with
    | none => .error (helpFault branches rest)
    | some b =>
      match b.read rest with
      | .error fault => .error fault
      | .ok result => (f.finish p).map fun draft => (draft, result)

end Form

end BenchPlot
