import H266.ConversionOptions

/-!
# Command Line Arguments

A command line names one of three commands, an input, and options. Options are long, such as
`--output`, or a letter after a dash; letters may be clustered. The value of an option is the
next argument, or it is attached, after an equals sign or right after the letter. After the
argument `--` everything is an input. `-v` may stand before or after the command.

Arguments are settled one after the other. The value of an option that is given as an
argument of its own, and the input, are settled when the next argument is looked at, so an
unknown argument is reported before a bad value right in front of it.
-/

namespace H266.CommandLine

/-! ### Invocations -/

/-- What is to be done with the input. -/
inductive Task
  /-- Write a decoder configuration record to the output. -/
  | record (output : String)
  /-- Write a stream with length fields to the output. -/
  | lengthPrefixed (output : String)
  /-- Show the fields of a decoder configuration record. -/
  | inspect
  deriving DecidableEq, Repr

/-- The word for a task in the log. -/
def Task.name : Task → String
  | record _ => "Record"
  | lengthPrefixed _ => "LengthPrefixed"
  | inspect => "Inspect"

/-- Where a task writes to, if it writes. -/
def Task.output? : Task → Option String
  | record output | lengthPrefixed output => some output
  | inspect => none

/-- What a command line asks for. -/
structure Invocation where
  verbose : Bool
  task : Task
  input : String
  options : ConversionOptions
  deriving DecidableEq, Repr

/-- Why a command line is not carried out. -/
inductive UsageError
  /-- Nothing was given, so help is shown. -/
  | nothingGiven
  | helpRequested
  | versionRequested
  | missingCommand
  | unknownCommand
  | missingArgument
  | unknownArgument
  /-- An argument that may be given once was given again. -/
  | repeatedArgument
  /-- An option that takes a value has none, or a path is empty. -/
  | missingValue
  /-- A flag was given a value. -/
  | unexpectedValue
  | badValue
  deriving DecidableEq, Repr

/-- The commands. -/
inductive Command
  | record
  | lengthPrefixed
  | inspect
  deriving DecidableEq, Repr

/-- The command with the given name. -/
def Command.ofName? : String → Option Command
  | "record" => some record
  | "length-prefixed" => some lengthPrefixed
  | "inspect" => some inspect
  | _ => none

/-! ### Options -/

/-- The options without a value. -/
inductive Flag
  | verbose
  | incompleteArrays
  | filterParameterSets
  | help
  | version
  deriving DecidableEq, Repr

/-- The arguments that carry a value. -/
inductive Slot
  | input
  | output
  | lengthSize
  deriving DecidableEq, Repr

/-- An option. -/
inductive OptionKind
  | flag (flag : Flag)
  | valued (slot : Slot)
  deriving DecidableEq, Repr

/-- The options that may stand before the command. -/
def rootOption? : String → Option OptionKind
  | "verbose" | "v" => some (.flag .verbose)
  | "help" | "h" => some (.flag .help)
  | "version" | "V" => some (.flag .version)
  | _ => none

/-- The options that may stand after a command. A name of one letter is given after one dash,
a longer name after two. -/
def Command.option? (command : Command) : String → Option OptionKind
  | "verbose" | "v" => some (.flag .verbose)
  | "help" | "h" => some (.flag .help)
  | "output" | "o" => if command = inspect then none else some (.valued .output)
  | "length-size" => if command = inspect then none else some (.valued .lengthSize)
  | "incomplete-arrays" => if command = record then some (.flag .incompleteArrays) else none
  | "filter-ps" => if command = lengthPrefixed then some (.flag .filterParameterSets) else none
  | _ => none

/-- The arguments settled so far. -/
structure Given where
  flags : List Flag
  input : Option String
  output : Option String
  lengthSize : Option LengthSize
  /-- An argument whose value is still to come or to be looked at. -/
  pending : Option (Slot × Option String)

namespace Given

/-- Nothing given. -/
def nothing : Given :=
  ⟨[], none, none, none, none⟩

/-- The number that a text states in decimal digits, if it fits a byte. A plus sign may stand
in front. -/
def byte? (text : String) : Option Nat :=
  let digits :=
    match text.toList with
    | '+' :: digits => digits
    | digits => digits
  if digits.isEmpty || !digits.all Char.isDigit then
    none
  else
    let value := digits.foldl (fun n digit => 10 * n + (digit.toNat - '0'.toNat)) 0
    if value < 256 then some value else none

/-- The length size that a text states. -/
def lengthSize? (text : String) : Except UsageError LengthSize :=
  match (byte? text).map LengthSize.ofBytes with
  | some (.ok size) => .ok size
  | _ => .error .badValue

/-- A path, which must not be empty. -/
def path (text : String) : Except UsageError String :=
  if text.isEmpty then .error .missingValue else .ok text

/-- Gives an argument its value. -/
def store (given : Given) (slot : Slot) (value : String) : Except UsageError Given := do
  match slot with
  | .input =>
    if given.input.isSome then
      throw .repeatedArgument
    return { given with input := some (← path value) }
  | .output =>
    if given.output.isSome then
      throw .repeatedArgument
    return { given with output := some (← path value) }
  | .lengthSize =>
    if given.lengthSize.isSome then
      throw .repeatedArgument
    return { given with lengthSize := some (← lengthSize? value) }

/-- Settles the argument that is pending. -/
def settle (given : Given) : Except UsageError Given :=
  match given.pending with
  | none => .ok given
  | some (_, none) => .error .missingValue
  | some (slot, some value) => { given with pending := none }.store slot value

/-- Settles what is pending and sets a flag. -/
def setFlag (given : Given) (flag : Flag) : Except UsageError Given := do
  let given ← given.settle
  match flag with
  | .help => throw .helpRequested
  | .version => throw .versionRequested
  | flag =>
    if flag ∈ given.flags then
      throw .repeatedArgument
    return { given with flags := flag :: given.flags }

/-- Settles what is pending and takes up an option that carries a value, which may be
attached to it. -/
def takeOption (given : Given) (slot : Slot) (attached : Option String) :
    Except UsageError Given := do
  let given ← given.settle
  match attached with
  | some value => given.store slot value
  | none => return { given with pending := some (slot, none) }

/-- Takes up an option after two dashes. -/
def takeLong (given : Given) (option? : String → Option OptionKind) (text : String) :
    Except UsageError Given := do
  let name := text.toList.takeWhile (· ≠ '=')
  let attached :=
    match text.toList.dropWhile (· ≠ '=') with
    | [] => none
    | _ :: value => some (String.ofList value)
  if name.length = 1 then
    throw .unknownArgument
  match option? (String.ofList name), attached with
  | none, _ => throw .unknownArgument
  | some (.flag _), some _ => throw .unexpectedValue
  | some (.flag flag), none => given.setFlag flag
  | some (.valued slot), attached => given.takeOption slot attached

/-- Takes up a cluster of letters after one dash. An option that carries a value ends the
cluster: what follows the letter is its value, less an equals sign. -/
def takeShort (given : Given) (option? : String → Option OptionKind) :
    List Char → Except UsageError Given
  | [] => .ok given
  | letter :: letters => do
    match option? (String.singleton letter) with
    | none => throw .unknownArgument
    | some (.flag flag) => takeShort (← given.setFlag flag) option? letters
    | some (.valued slot) =>
      match letters with
      | [] => given.takeOption slot none
      | '=' :: value => given.takeOption slot (some (String.ofList value))
      | value => given.takeOption slot (some (String.ofList value))

/-- Takes up the input, of which there is only one. -/
def takeInput (given : Given) (word : String) : Except UsageError Given := do
  if given.input.isSome || given.pending matches some (.input, _) then
    throw .unknownArgument
  let given ← given.settle
  return { given with pending := some (.input, some word) }

/-- Takes up an argument that is no option: the value of a pending option, or else the
input. -/
def takeWord (given : Given) (word : String) : Except UsageError Given :=
  match given.pending with
  | some (slot, none) => .ok { given with pending := some (slot, some word) }
  | _ => given.takeInput word

end Given

/-! ### Parsing -/

/-- How an argument is to be understood. -/
inductive Shape
  /-- Two dashes alone. -/
  | escape
  /-- An option after two dashes, here without them. -/
  | long (text : String)
  /-- Letters after one dash. -/
  | short (letters : List Char)
  | word

/-- The shape of an argument; a single dash is a word. -/
def Shape.of (argument : String) : Shape :=
  match argument.toList with
  | ['-', '-'] => escape
  | '-' :: '-' :: text => long (String.ofList text)
  | ['-'] => word
  | '-' :: letters => short letters
  | _ => word

/-- Takes up the arguments after a command. -/
def takeArguments (command : Command) (given : Given) :
    List String → Except UsageError Given
  | [] => given.settle
  | argument :: arguments => do
    match Shape.of argument with
    | .escape => takeInputs given arguments
    | .long text =>
      takeArguments command (← given.takeLong command.option? text) arguments
    | .short letters =>
      takeArguments command (← given.takeShort command.option? letters) arguments
    | .word => takeArguments command (← given.takeWord argument) arguments
where
  /-- Takes up the arguments after two dashes. -/
  takeInputs (given : Given) : List String → Except UsageError Given
    | [] => given.settle
    | argument :: arguments => do
      takeInputs (← given.takeInput argument) arguments

/-- The invocation that a command and the arguments given with it make. -/
def invocation (command : Command) (verbose : Bool) (given : Given) :
    Except UsageError Invocation := do
  let options : ConversionOptions := {
    lengthSize := given.lengthSize.getD ConversionOptions.standard.lengthSize
    completeArrays := !given.flags.contains .incompleteArrays
    filterParameterSets := given.flags.contains .filterParameterSets }
  let verbose := verbose || given.flags.contains .verbose
  match given.input, command, given.output with
  | some input, .record, some output =>
    return { verbose, options, input, task := .record output }
  | some input, .lengthPrefixed, some output =>
    return { verbose, options, input, task := .lengthPrefixed output }
  | some input, .inspect, _ => return { verbose, options, input, task := .inspect }
  | _, _, _ => throw .missingArgument

/-- What the arguments of the help command lead to: help on a command, or the report that
there is no such command. -/
def help : List String → UsageError
  | [] => .helpRequested
  | [name] =>
    if name = "help" || (Command.ofName? name).isSome then .helpRequested else .unknownCommand
  | _ => .unknownCommand

/-- Parses the arguments from where the command may stand, given the flags before them. -/
def parseFrom (given : Given) : List String → Except UsageError Invocation
  | [] => .error (if given.flags.isEmpty then .nothingGiven else .missingCommand)
  | argument :: arguments => do
    if argument = "help" then
      throw (help arguments)
    match Command.ofName? argument with
    | some command =>
      let verbose := given.flags.contains .verbose
      invocation command verbose (← takeArguments command .nothing arguments)
    | none =>
      match Shape.of argument with
      | .escape => afterEscape arguments
      | .long text => parseFrom (← given.takeLong rootOption? text) arguments
      | .short letters => parseFrom (← given.takeShort rootOption? letters) arguments
      | .word => throw .unknownCommand
where
  /-- There is no command after two dashes, but a name of one is told from other words. -/
  afterEscape : List String → Except UsageError Invocation
    | [] => .error (if given.flags.isEmpty then .nothingGiven else .missingCommand)
    | argument :: _ =>
      if argument = "help" || (Command.ofName? argument).isSome then
        .error .unknownArgument
      else
        .error .unknownCommand

/-- Parses the arguments of a command line, without the name of the program. -/
def parse (arguments : List String) : Except UsageError Invocation :=
  parseFrom .nothing arguments

end H266.CommandLine
