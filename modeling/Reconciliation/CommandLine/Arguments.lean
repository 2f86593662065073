/-! # Arguments

Switches of the program, a command, and then switches and the manifest of the command. The value of
a word is only looked at when the next word that fits has come, or at the end.
-/
namespace Reconciliation

namespace CommandLine

inductive Command where
  | run
  | check
  deriving DecidableEq, Repr

def Command.text : Command → String
  | run => "run"
  | check => "check"

def Command.ofText? : String → Option Command
  | "run" => some .run
  | "check" => some .check
  | _ => none

structure Invocation where
  command : Command
  manifest : String
  config : Option String
  compact : Bool
  verbose : Bool
  deriving DecidableEq, Repr

def Invocation.filter (i : Invocation) : String :=
  if i.verbose then "switchyard=debug" else "switchyard=info"

/-- What help is asked for: the program, one of its commands, or help itself. -/
inductive Topic where
  | program
  | command (c : Command)
  | help
  deriving DecidableEq, Repr

inductive Refusal where
  | help (topic : Topic)
  | version
  /-- There is nothing to go by, so help is given. -/
  | nothingAsked
  | missingCommand
  | unknownCommand
  | unknownArgument
  | missingManifest
  | emptyValue
  | valueForSwitch
  | repeated
  deriving DecidableEq, Repr

def Refusal.text : Refusal → String
  | help _ => "DisplayHelp"
  | version => "DisplayVersion"
  | nothingAsked => "DisplayHelpOnMissingArgumentOrSubcommand"
  | missingCommand => "MissingSubcommand"
  | unknownCommand => "InvalidSubcommand"
  | unknownArgument => "UnknownArgument"
  | missingManifest => "MissingRequiredArgument"
  | emptyValue => "InvalidValue"
  | valueForSwitch => "TooManyValues"
  | repeated => "ArgumentConflict"

inductive Switch where
  | verbose
  | help
  | version
  | config
  | compact
  deriving DecidableEq, Repr

/-- The switches of the program stand before the command, those of a command after it. -/
def Switch.belongsTo : Switch → Topic → Bool
  | verbose, _ | help, _ => true
  | version, t => t = .program
  | config, t | compact, t => t ≠ .program

def Switch.ofLetter? : Char → Option Switch
  | 'v' => some .verbose
  | 'h' => some .help
  | 'V' => some .version
  | 'c' => some .config
  | _ => none

def Switch.ofName? : String → Option Switch
  | "verbose" => some .verbose
  | "help" => some .help
  | "version" => some .version
  | "config" => some .config
  | "compact" => some .compact
  | _ => none

inductive Pending where
  | manifest (word : String)
  /-- The path of a configuration, unless it is still to come. -/
  | config (word : Option String)
  deriving DecidableEq, Repr

structure Reading where
  topic : Topic
  manifest : Option String
  config : Option String
  compact : Bool
  verbose : Bool
  pending : Option Pending
  deriving DecidableEq, Repr

namespace Reading

def start (t : Topic) : Reading := ⟨t, none, none, false, false, none⟩

def storeConfig (r : Reading) (path : String) : Except Refusal Reading :=
  if r.config.isSome then .error .repeated
  else if path.isEmpty then .error .emptyValue
  else .ok { r with config := some path }

def resolve (r : Reading) : Except Refusal Reading :=
  let rest := { r with pending := none }
  match r.pending with
  | none => .ok rest
  | some (.manifest word) =>
    if word.isEmpty then .error .emptyValue else .ok { rest with manifest := some word }
  | some (.config none) => .error .emptyValue
  | some (.config (some path)) => rest.storeConfig path

def awaits (r : Reading) : Bool :=
  r.pending = some (.config none)

def turnOn (r : Reading) (s : Switch) : Except Refusal Reading := do
  let r ← r.resolve
  match s with
  | .verbose => if r.verbose then .error .repeated else .ok { r with verbose := true }
  | .compact => if r.compact then .error .repeated else .ok { r with compact := true }
  | .config => .ok { r with pending := some (.config none) }
  | .help => .error (.help r.topic)
  | .version => .error .version

def readName (r : Reading) (name : String) (value : Option String) : Except Refusal Reading :=
  match (Switch.ofName? name).filter (·.belongsTo r.topic), value with
  | none, _ => .error .unknownArgument
  | some .config, some path => do (← r.resolve).storeConfig path
  | some _, some _ => .error .valueForSwitch
  | some s, none => r.turnOn s

/-- Switches by their letters. What follows the letter of a switch with a value is that value. -/
def readLetters (r : Reading) : List Char → Except Refusal Reading
  | [] => .ok r
  | c :: cs =>
    match (Switch.ofLetter? c).filter (·.belongsTo r.topic), cs with
    | none, _ => .error .unknownArgument
    | some .config, [] => r.turnOn .config
    | some .config, '=' :: path => do (← r.resolve).storeConfig (String.ofList path)
    | some .config, path => do (← r.resolve).storeConfig (String.ofList path)
    | some s, cs => do (← r.turnOn s).readLetters cs

/-- A word that is no switch: the manifest, unless there is one already. -/
def readManifest (r : Reading) (word : String) : Except Refusal Reading :=
  match r.manifest, r.pending with
  | some _, _ | _, some (.manifest _) => .error .unknownArgument
  | none, _ => do return { ← r.resolve with pending := some (.manifest word) }

end Reading

inductive Word where
  /-- Two dashes alone. -/
  | divider
  | name (name : String) (value : Option String)
  | letters (cs : List Char)
  | plain
  deriving DecidableEq, Repr

def Word.ofChars : List Char → Word
  | ['-', '-'] => .divider
  | '-' :: '-' :: cs =>
    match cs.span (· != '=') with
    | (front, '=' :: value) => .name (String.ofList front) (some (String.ofList value))
    | (front, _) => .name (String.ofList front) none
  | '-' :: c :: cs => .letters (c :: cs)
  | _ => .plain

def Word.of (s : String) : Word :=
  .ofChars s.toList

/-- Reads the words of a command; `divided` once there are no more switches. -/
def readCommand (r : Reading) (divided : Bool) : List String → Except Refusal Reading
  | [] => r.resolve
  | w :: rest => do
    if divided then readCommand (← r.readManifest w) divided rest
    else
      match Word.of w with
      | .divider => readCommand r true rest
      | .name name value => readCommand (← r.readName name value) divided rest
      | .letters cs => readCommand (← r.readLetters cs) divided rest
      | .plain =>
        if r.awaits then
          readCommand { r with pending := some (.config (some w)) } divided rest
        else readCommand (← r.readManifest w) divided rest

def invoke (c : Command) (verbose : Bool) (words : List String) : Except Refusal Invocation := do
  let r ← readCommand (.start (.command c)) false words
  match r.manifest with
  | none => .error .missingManifest
  | some manifest =>
    return { command := c, manifest, config := r.config, compact := r.compact,
             verbose := verbose || r.verbose }

def readHelp : List String → Refusal
  | [] => .help .program
  | [w] =>
    match Command.ofText? w with
    | some c => .help (.command c)
    | none => if w = "help" then .help .help else .unknownCommand
  | _ => .unknownCommand

def readProgram (r : Reading) (divided : Bool) : List String → Except Refusal Invocation
  | [] => .error (if r.verbose then .missingCommand else .nothingAsked)
  | w :: rest => do
    let isCommand := w = "help" ∨ (Command.ofText? w).isSome
    if divided then .error (if isCommand then .unknownArgument else .unknownCommand)
    else if w = "help" then .error (readHelp rest)
    else
      match Command.ofText? w, Word.of w with
      | some c, _ => invoke c r.verbose rest
      | none, .divider => readProgram r true rest
      | none, .name name value => readProgram (← r.readName name value) divided rest
      | none, .letters cs => readProgram (← r.readLetters cs) divided rest
      | none, .plain => .error .unknownCommand

def read (words : List String) : Except Refusal Invocation :=
  readProgram (.start .program) false words

end CommandLine

end Reconciliation
