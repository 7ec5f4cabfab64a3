import ResourceQuery.Check
import ResourceQuery.CommandLine.Help
import ResourceQuery.Token.Listing
import ResourceQuery.Tree.Event

/-! The command line: from arguments and input to what is printed, what is logged and the exit code.
-/

namespace ResourceQuery.CommandLine

/-! ## Arguments -/

/-- An option of a check that takes no value. -/
inductive Flag where
  | json
  | pretty
  | syntaxOnly
  deriving DecidableEq

/-- What an argument is, once options are told from values. -/
inductive Argument where
  | value (text : String)
  | flag (flag : Flag)
  | name (text : String)
  /-- The wish for a log. -/
  | verbose
  | help
  | version
  deriving DecidableEq

namespace Argument

/-- Whether the argument is granted at once, so that nothing behind it is read. -/
def isLast : Argument → Bool
  | help | version => true
  | _ => false

/-- Whether the argument may stand in front of a command. -/
def isLeading : Argument → Bool
  | verbose | help | version => true
  | _ => false

/-- Whether the argument may stand behind every command. -/
def isCommon : Argument → Bool
  | value _ | verbose | help => true
  | _ => false

/-- The argument that a long option without a value stands for. -/
def ofLong? : String → Option Argument
  | "json" => some (flag .json)
  | "pretty" => some (flag .pretty)
  | "syntax-only" => some (flag .syntaxOnly)
  | "verbose" => some verbose
  | "help" => some help
  | "version" => some version
  | _ => none

end Argument

/-- Whether an argument is an option rather than a value. A hyphen alone is a value. -/
def isOption (argument : String) : Bool :=
  match argument.toList with
  | '-' :: _ :: _ => true
  | _ => false

/-- The arguments that a cluster of short options stands for, and whether the value of the last
one is still to come. A value may stand right behind its option, with or without an equals sign.
-/
def readCluster : List Char → Option (List Argument × Bool)
  | [] => some ([], false)
  | 'h' :: _ => some ([.help], false)
  | 'V' :: _ => some ([.version], false)
  | 'v' :: cs => (readCluster cs).map fun (others, pending) => (.verbose :: others, pending)
  | 'j' :: cs => (readCluster cs).map fun (others, pending) => (.flag .json :: others, pending)
  | 'p' :: cs => (readCluster cs).map fun (others, pending) => (.flag .pretty :: others, pending)
  | ['n'] => some ([], true)
  | 'n' :: '=' :: cs => some ([.name (String.ofList cs)], false)
  | 'n' :: cs => some ([.name (String.ofList cs)], false)
  | _ => none

/-- The arguments that a long option stands for, and whether its value is still to come. -/
def readLong (option : List Char) : Option (List Argument × Bool) :=
  let key := String.ofList (option.takeWhile (· != '='))
  match option.dropWhile (· != '=') with
  | _ :: value => if key = "name" then some ([.name (String.ofList value)], false) else none
  | [] =>
    if key = "name" then some ([], true)
    else (Argument.ofLong? key).map fun argument => ([argument], false)

/-- The arguments that one argument with options stands for, and whether a value is still to come.
-/
def readOption (argument : String) : Option (List Argument × Bool) :=
  match argument.toList with
  | '-' :: '-' :: option => readLong option
  | '-' :: cluster => readCluster cluster
  | _ => none

/-- Tells options from values. Behind two hyphens everything is a value; an option that wants a
value takes the next argument, unless that is an option or those two hyphens. Nothing is read behind
an option that is granted at once. -/
def readArguments : List String → Option (List Argument)
  | [] => some []
  | argument :: arguments =>
    if argument = "--" then some (arguments.map .value)
    else if isOption argument then
      match readOption argument with
      | none => none
      | some (read, false) =>
        if read.any Argument.isLast then some read
        else (readArguments arguments).map (read ++ ·)
      | some (read, true) =>
        match arguments with
        | [] => none
        | value :: arguments =>
          if isOption value then none
          else (readArguments arguments).map (read ++ .name value :: ·)
    else (readArguments arguments).map (.value argument :: ·)

/-! ## Commands -/

/-- What the program can do. A statement that is missing is read from the input. -/
inductive Command where
  | check (statement : Option String) (name : String) (view : View)
  | tokens (statement : Option String)
  | docs
  | doc (category : String)
  deriving DecidableEq

/-- What the program is asked for. -/
inductive Request where
  | run (command : Command) (verbose : Bool)
  | help (topic : Topic)
  | version
  deriving DecidableEq

namespace Request

/-- The request that the arguments behind a command make, where the command is what they come to if
they are complete. Help is given even if they are not. -/
def ofArguments? (topic : Topic) (arguments : List Argument) (command : Option Command) :
    Option Request :=
  if arguments.count .verbose ≤ 1 then
    if arguments.contains .help then some (help topic)
    else command.map fun command => run command (arguments.contains .verbose)
  else none

/-- The same request, with a log of what is run. -/
def logged : Request → Request
  | run command _ => run command true
  | request => request

end Request

/-- The values among the arguments. -/
def values (arguments : List Argument) : List String :=
  arguments.filterMap fun
    | .value text => some text
    | _ => none

/-- The names among the arguments. -/
def names (arguments : List Argument) : List String :=
  arguments.filterMap fun
    | .name text => some text
    | _ => none

/-- The only member of a list, or none if the list is empty. A longer list has no answer. -/
def atMostOne : List String → Option (Option String)
  | [] => some none
  | [text] => some (some text)
  | _ => none

/-- The name in diagnostics if none is given. -/
def defaultName : String := "root"

/-- A check takes at most one statement and every option at most once. -/
def readCheck (arguments : List Argument) : Option Request := do
  let statement ← atMostOne (values arguments)
  let name ← atMostOne (names arguments)
  let given (flag : Flag) : Bool := arguments.contains (.flag flag)
  let once (flag : Flag) : Bool := arguments.count (.flag flag) ≤ 1
  if arguments.contains .version then none
  else if [Flag.json, .pretty, .syntaxOnly].all once then
    Request.ofArguments? .check arguments (some (.check statement (name.getD defaultName)
      (.ofWishes (given .json) (given .pretty) (given .syntaxOnly))))
  else none

/-- Reads the values of a command that has no options of its own. -/
def readValues (arguments : List Argument) : Option (List String) :=
  if arguments.all Argument.isCommon then some (values arguments) else none

/-- The request that a command makes with its arguments. There is none if they break the rules. -/
def readCommand : List String → Option Request
  | "check" :: arguments => do readCheck (← readArguments arguments)
  | "tokens" :: arguments => do
    let arguments ← readArguments arguments
    let statement ← atMostOne (← readValues arguments)
    Request.ofArguments? .tokens arguments (some (.tokens statement))
  | "docs" :: arguments => do
    let arguments ← readArguments arguments
    match ← readValues arguments with
    | [] => Request.ofArguments? .docs arguments (some .docs)
    | _ => none
  | "doc" :: arguments => do
    let arguments ← readArguments arguments
    let category ← atMostOne (← readValues arguments)
    Request.ofArguments? .doc arguments (category.map .doc)
  | ["help"] => some (.help .program)
  | ["help", command] => (Topic.ofCommand? command).map .help
  | _ => none

/-- Whether an argument is an option in front of the command. -/
def leads (argument : String) : Bool := isOption argument && argument != "--"

/-- The request that the arguments spell. There is none if they break the rules. -/
def Request.read? (arguments : List String) : Option Request := do
  let front ← readArguments (arguments.takeWhile leads)
  if front.all Argument.isLeading && front.count .verbose ≤ 1 then
    if front.contains .help then return help .program
    else if front.contains .version then return version
    else
      let request ← readCommand (arguments.dropWhile leads)
      return if front.contains .verbose then request.logged else request
  else none

/-! ## Running -/

/-- What the program can read besides its arguments. -/
structure Input where
  /-- Whether somebody would have to type it. -/
  isTerminal : Bool
  bytes : ByteArray

/-- The statement that is meant: the given one, or the input if a hyphen or nothing is given. A
terminal is not read unless a hyphen asks for it. -/
def statementText (input : Input) (statement : Option String) : Except Failure (Option String) :=
  if statement = some "-" ∨ (statement = none ∧ input.isTerminal = false) then
    match String.fromUTF8? input.bytes with
    | some text => .ok (some text)
    | none => .error .undecodable
  else .ok statement

/-- Whether the command needs the bytes of its input. -/
def Command.readsInput (isTerminal : Bool) : Command → Bool
  | check statement _ _ | tokens statement =>
    statement == some "-" || (statement == none && !isTerminal)
  | docs | doc _ => false

/-- Whether the request needs the bytes of the input. -/
def Request.readsInput (isTerminal : Bool) : Request → Bool
  | run command _ => command.readsInput isTerminal
  | help _ | version => false

/-- What a command prints. -/
def Command.output (input : Input) : Command → Except Failure String
  | check statement name view => do
    let finding ← ResourceQuery.check view name (← statementText input statement)
    return finding.text ++ "\n"
  | tokens statement => do
    match ← statementText input statement with
    | some text => return tokenListing text
    | none => .error .noInput
  | docs => .ok Manual.overview
  | doc category => Manual.page category

/-- What is logged while a command runs. -/
def Command.log (input : Input) : Command → List Event
  | check statement name _ =>
    match statementText input statement with
    | .ok (some text) => Tree.log name text
    | _ => []
  | tokens _ | docs | doc _ => []

/-- What is printed about a failure. A diagnostic is followed by its place. -/
def report (failure : Failure) : String :=
  match failure with
  | .diagnostic d => failure.message ++ "\n  at " ++ d.location ++ "\n"
  | _ => failure.message ++ "\n"

/-- How a run of the program ends. -/
inductive Outcome where
  /-- The arguments break the rules. -/
  | misused
  | done (exitCode : Nat) (stdout stderr : String)
  deriving DecidableEq

/-- Runs a command on its input. -/
def Command.run (input : Input) (command : Command) : Outcome :=
  match command.output input with
  | .ok text => .done 0 text ""
  | .error failure => .done 1 "" (report failure)

/-- Grants a request. -/
def Request.grant (input : Input) : Request → Outcome
  | run command _ => command.run input
  | help topic => .done 0 topic.page ""
  | version => .done 0 versionLine ""

/-- Runs the program. -/
def run (arguments : List String) (input : Input) : Outcome :=
  match Request.read? arguments with
  | some request => request.grant input
  | none => .misused

/-- What is logged while the program runs. -/
def log (arguments : List String) (input : Input) : List Event :=
  match Request.read? arguments with
  | some (.run command true) => command.log input
  | _ => []

end ResourceQuery.CommandLine
