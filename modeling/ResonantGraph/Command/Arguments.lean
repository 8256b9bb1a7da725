import ResonantGraph.Text.Blank

/-!
# Command lines

A command line is read in two levels: options that may stand before a command, then the command with
its own options and operands. Options that concern every command may stand on either level; where
one stands on both, the inner one counts.

Reading goes from left to right and stops at the first fault. An option whose value is the next
argument, and a row of operands, are *pending* until something else begins; only then are they
checked. This decides which of two faults is reported: what is pending is checked after the next
argument has been recognised as an option, and a pending outer option after the whole inner level.
-/

namespace ResonantGraph.Command

/-- Why a command line is not carried out. -/
inductive UsageFault
  /-- Help is asked for. -/
  | helpWanted
  /-- The version is asked for. -/
  | versionWanted
  /-- An operand or an option that the command needs is not there. -/
  | missingArgument
  /-- An option or operand that the command does not have. -/
  | unknownArgument
  /-- A word that is no command stands where a command is due. -/
  | unknownCommand
  /-- An option stands twice on one level. -/
  | repeatedOption
  /-- The value of an option or an operand is missing or empty. -/
  | emptyValue
  /-- A switch has a value. -/
  | surplusValue
  /-- An attribute is not of the form `key=value`. -/
  | malformedAttribute (raw : String)
deriving DecidableEq

/-- The wording of a fault in a command line. -/
def UsageFault.message : UsageFault → String
  | helpWanted => "help"
  | versionWanted => "version"
  | missingArgument => "a required argument is missing"
  | unknownArgument => "unexpected argument"
  | unknownCommand => "unknown command"
  | repeatedOption => "an option is given twice"
  | emptyValue => "a value is missing"
  | surplusValue => "a switch takes no value"
  | malformedAttribute raw => "expected key=value, got '" ++ raw ++ "'"

/-! ### Attributes -/

/-- Splits a text at the first equals sign. -/
def splitAtEquals (text : List Char) : List Char × Option (List Char) :=
  match text.dropWhile (· ≠ '=') with
  | [] => (text, none)
  | _ :: value => (text.takeWhile (· ≠ '='), some value)

/-- Reads an attribute: a key, which is trimmed and must not be blank, an equals sign, and a value,
which is taken as it is. -/
def readAttribute (raw : String) : Except UsageFault (String × String) :=
  match splitAtEquals raw.toList with
  | (key, some value) =>
    let key := Text.trim key
    if key.isEmpty then .error (.malformedAttribute raw)
    else .ok (String.ofList key, String.ofList value)
  | (_, none) => .error (.malformedAttribute raw)

/-! ### Commands and options -/

/-- The commands. -/
inductive Verb
  | echo
  | map
  | status
  | exportSnapshot
  | importSnapshot
  | resonance
deriving DecidableEq

/-- The command of a name. -/
def Verb.ofName? : String → Option Verb
  | "echo" => some echo
  | "map" => some map
  | "status" => some status
  | "export" => some exportSnapshot
  | "import" => some importSnapshot
  | "resonance" => some resonance
  | _ => none

/-- The name that stands for help where a command is due. -/
def helpName : String := "help"

/-- Whether a command takes operands. -/
def Verb.takesOperands : Verb → Bool
  | echo | map => true
  | _ => false

/-- The options. -/
inductive Choice
  | verbose
  | quiet
  | json
  | help
  | version
  | store
  | settings
  | attr
  | node
  | output
  | input
  | text
deriving DecidableEq

namespace Choice

/-- The name of an option after two dashes. -/
def long : Choice → String
  | verbose => "verbose"
  | quiet => "quiet"
  | json => "json"
  | help => "help"
  | version => "version"
  | store => "store"
  | settings => "config"
  | attr => "attr"
  | node => "node"
  | output => "output"
  | input => "input"
  | text => "text"

/-- The letter of an option after one dash. -/
def short? : Choice → Option Char
  | verbose => some 'v'
  | quiet => some 'q'
  | json => none
  | help => some 'h'
  | version => some 'V'
  | store => some 'D'
  | settings => some 'c'
  | attr => some 'a'
  | node => some 'n'
  | output => some 'o'
  | input => some 'i'
  | text => some 't'

/-- Whether an option has a value; the others are switches. -/
def takesValue : Choice → Bool
  | verbose | quiet | json | help | version => false
  | _ => true

/-- Whether an option may stand several times. -/
def isRepeatable (c : Choice) : Bool := c = attr

/-- Fails unless a value suits an option: paths are not empty, and attributes have their form. -/
def check (c : Choice) (value : String) : Except UsageFault Unit :=
  match c with
  | store | settings | output | input => if value = "" then .error .emptyValue else .ok ()
  | attr => (readAttribute value).map fun _ => ()
  | _ => .ok ()

/-- The options before a command, or those of a command. -/
def available (level : Option Verb) : List Choice :=
  [verbose, quiet, store, settings, json, help] ++
    match level with
    | none => [version]
    | some .echo => []
    | some .map => [attr]
    | some .status => [node]
    | some .exportSnapshot => [output]
    | some .importSnapshot => [input]
    | some .resonance => [text]

end Choice

/-! ### Reading one level -/

/-- What has been begun and not been checked. -/
inductive Pending
  /-- An option, with its value once that has been seen. -/
  | option (choice : Choice) (value : Option String)
  /-- A row of operands. -/
  | operands (values : List String)

/-- What has been read on one level. -/
structure Reading where
  /-- The options with their values, in order; switches have an empty one. -/
  given : List (Choice × String) := []
  /-- The operands, in order. -/
  operands : List String := []
  /-- What has not been checked yet. -/
  pending : Option Pending := none
  /-- Whether two dashes have said that only operands follow. -/
  closed : Bool := false

namespace Reading

/-- Takes an option with its value. -/
def take (r : Reading) (choice : Choice) (value : String) : Except UsageFault Reading :=
  if !choice.isRepeatable && r.given.any (·.1 = choice) then .error .repeatedOption
  else (choice.check value).map fun _ => { r with given := r.given ++ [(choice, value)] }

/-- Checks what is pending. -/
def settle (r : Reading) : Except UsageFault Reading :=
  let r' := { r with pending := none }
  match r.pending with
  | none => .ok r
  | some (.option _ none) => .error .emptyValue
  | some (.option choice (some value)) => r'.take choice value
  | some (.operands values) =>
    if values.contains "" then .error .emptyValue
    else .ok { r' with operands := r.operands ++ values }

/-- The option that waits for the next argument as its value. -/
def awaiting? (r : Reading) : Option Choice :=
  match r.pending with
  | some (.option choice none) => some choice
  | _ => none

/-- Reads an option, with the value that is attached to it if there is one. -/
def readOption (r : Reading) (choice : Choice) (attached : Option String) :
    Except UsageFault Reading := do
  match choice.takesValue, attached with
  | true, some value => (← r.settle).take choice value
  | true, none => return { ← r.settle with pending := some (.option choice none) }
  | false, some _ => throw .surplusValue
  | false, none =>
    let r ← r.settle
    match choice with
    | .help => throw .helpWanted
    | .version => throw .versionWanted
    | _ => r.take choice ""

/-- Reads what follows two dashes: a name, and a value after an equals sign. -/
def readLong (level : Option Verb) (r : Reading) (text : List Char) :
    Except UsageFault Reading :=
  let (name, attached) := splitAtEquals text
  match (Choice.available level).find? (·.long = String.ofList name) with
  | some choice => r.readOption choice (attached.map String.ofList)
  | none => .error .unknownArgument

/-- Reads what follows one dash: letters of switches, and at the end perhaps the letter of an option
with its value, which may have an equals sign before it. -/
def readShort (level : Option Verb) (r : Reading) : List Char → Except UsageFault Reading
  | [] => .ok r
  | c :: rest =>
    match (Choice.available level).find? (·.short? = some c) with
    | none => .error .unknownArgument
    | some choice =>
      if choice.takesValue then
        match rest with
        | [] => r.readOption choice none
        | '=' :: value => r.readOption choice (some (String.ofList value))
        | value => r.readOption choice (some (String.ofList value))
      else
        match r.readOption choice none with
        | .ok r => readShort level r rest
        | .error e => .error e

/-- Reads an operand. Where there are no operands it is unknown; before a command it is taken for a
misspelt one, unless it is a command that two dashes keep from being recognised. -/
def readOperand (level : Option Verb) (r : Reading) (argument : String) :
    Except UsageFault Reading :=
  match level with
  | none =>
    if r.closed && ((Verb.ofName? argument).isSome || argument = helpName) then
      .error .unknownArgument
    else .error .unknownCommand
  | some verb =>
    if verb.takesOperands then
      match r.pending with
      | some (.operands values) => .ok { r with pending := some (.operands (values ++ [argument])) }
      | _ => r.settle.map fun r => { r with pending := some (.operands [argument]) }
    else .error .unknownArgument

/-- Reads an argument that is no command. -/
def readArgument (level : Option Verb) (r : Reading) (argument : String) :
    Except UsageFault Reading :=
  if r.closed then r.readOperand level argument
  else
    match argument.toList with
    | ['-', '-'] => .ok { r with closed := true }
    | '-' :: '-' :: text => r.readLong level text
    | '-' :: c :: rest => r.readShort level (c :: rest)
    | _ =>
      match r.awaiting? with
      | some choice => .ok { r with pending := some (.option choice (some argument)) }
      | none => r.readOperand level argument

/-- Reads what follows the request for help, which may name commands: there are none below a
command. -/
def readHelp : List String → UsageFault
  | [] => .helpWanted
  | [name] => if (Verb.ofName? name).isSome || name = helpName then .helpWanted else .unknownCommand
  | _ => .unknownCommand

/-- Reads arguments up to a command, or to the end. -/
def readOuter (r : Reading) :
    List String → Except UsageFault (Reading × Option (Verb × List String))
  | [] => .ok (r, none)
  | argument :: rest =>
    let recognised := !r.closed && r.awaiting?.isNone
    if recognised && argument = helpName then .error (readHelp rest)
    else
      match if recognised then Verb.ofName? argument else none with
      | some verb => .ok (r, some (verb, rest))
      | none =>
        match r.readArgument none argument with
        | .ok r => readOuter r rest
        | .error e => .error e

/-- Reads the arguments of a command. -/
def readInner (verb : Verb) (arguments : List String) : Except UsageFault Reading :=
  arguments.foldlM (fun r argument => r.readArgument (some verb) argument) {}

/-- The last value of an option. -/
def value? (r : Reading) (choice : Choice) : Option String :=
  (r.given.reverse.find? (·.1 = choice)).map (·.2)

/-- The value of an option that a command needs. -/
def require (r : Reading) (choice : Choice) : Except UsageFault String :=
  match r.value? choice with
  | some value => .ok value
  | none => .error .missingArgument

/-- The operands of a command that needs one at least. -/
def requireOperands (r : Reading) : Except UsageFault (List String) :=
  if r.operands.isEmpty then .error .missingArgument else .ok r.operands

end Reading

/-! ### Invocations -/

/-- What is to be done. -/
inductive Action
  /-- Echo files. -/
  | echo (files : List String)
  /-- Map files, with attributes for every record. -/
  | map (files : List String) (attributes : List (String × String))
  /-- Report on the graph, and on a node of it. -/
  | status (node : Option String)
  /-- Write a snapshot. -/
  | exportSnapshot (output : String)
  /-- Replace the stored graph by a snapshot. -/
  | importSnapshot (input : String)
  /-- Score a text. -/
  | resonance (text : String)

/-- What a command line asks for. -/
structure Invocation where
  /-- Whether to say more. -/
  verbose : Bool := false
  /-- Whether to say less. -/
  quiet : Bool := false
  /-- Whether to report as structured data. -/
  json : Bool := false
  /-- The path of the store. -/
  store : Option String := none
  /-- The path of the settings. -/
  settings : String := "hyperecho.toml"
  /-- What is to be done. -/
  action : Action := .status none

/-- What a command is to do, from what was read after it. -/
def Verb.action (verb : Verb) (r : Reading) : Except UsageFault Action :=
  match verb with
  | echo => r.requireOperands.map .echo
  | map => do
    let files ← r.requireOperands
    let raw := (r.given.filter (·.1 = .attr)).map (·.2)
    return .map files (← raw.mapM readAttribute)
  | status => .ok (.status (r.value? .node))
  | exportSnapshot => (r.require .output).map .exportSnapshot
  | importSnapshot => (r.require .input).map .importSnapshot
  | resonance => (r.require .text).map .resonance

/-- The invocation of an action, with the options of both levels. -/
def invocation (outer inner : Reading) (action : Action) : Invocation :=
  let value? (choice : Choice) : Option String := (inner.value? choice).or (outer.value? choice)
  { verbose := (value? .verbose).isSome
    quiet := (value? .quiet).isSome
    json := (value? .json).isSome
    store := value? .store
    settings := (value? .settings).getD ({} : Invocation).settings
    action }

/-- Reads a command line, without the name of the program. -/
def readCommandLine (arguments : List String) : Except UsageFault Invocation := do
  match ← ({} : Reading).readOuter arguments with
  | (outer, none) => return invocation (← outer.settle) {} (.status none)
  | (outer, some (verb, rest)) =>
    let inner ← (← Reading.readInner verb rest).settle
    let action ← verb.action inner
    return invocation (← outer.settle) inner action

end ResonantGraph.Command
