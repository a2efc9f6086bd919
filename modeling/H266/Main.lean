import H266.CommandLine.Path
import H266.CommandLine.Run

/-!
# The Program

Carries out the command line it is given on the files of the disk, tells notices on standard
error, and ends with a code: 0 if all went well, 1 if the command failed, 2 if the command
line was not understood.
-/

namespace H266.CommandLine

/-- The failure that an error of the system stands for. -/
def failureOf (error : IO.Error) : IoFailure :=
  let kind : IoKind :=
    match error with
    | .noFileOrDirectory .. => .notFound
    | .alreadyExists .. => .alreadyExists
    | .permissionDenied .. => .permissionDenied
    | .inappropriateType .. => .isDirectory
    | .unexpectedEof => .unexpectedEnd
    | _ => .other "Other"
  ⟨kind, toString error⟩

/-- Runs a step on the disk and returns its value or its failure. -/
def attempt {α : Type} (step : IO α) : IO (Except IoFailure α) := do
  match ← step.toBaseIO with
  | .ok value => return .ok value
  | .error error => return .error (failureOf error)

/-- The files of the disk as a storage. -/
def disk : Storage IO where
  read path := attempt do
    return (← IO.FS.readBinFile path).toList
  makeParents path := attempt do
    match Path.parent? path with
    | some parent => IO.FS.createDirAll parent
    | none => return
  write path data := attempt (IO.FS.writeBinFile path ⟨data.toArray⟩)

/-- A notice in a line of text. -/
def line (notice : Notice) : String :=
  let fields := notice.fields.map fun (name, value) => s!" {name}={value}"
  s!"{notice.level.name} {notice.message}" ++ String.join fields

/-- How to call the program. -/
def usage : String :=
  "VVC (H.266) decoder configuration record tool\n\n"
    ++ "h266 record INPUT -o OUTPUT [--incomplete-arrays] [--length-size 1|2|4]\n"
    ++ "h266 length-prefixed INPUT -o OUTPUT [--filter-ps] [--length-size 1|2|4]\n"
    ++ "h266 inspect INPUT\n\n"
    ++ "-v, --verbose before or after the command shows more notices.\n"

/-- The version of the program. -/
def version : String := "h266 0.1.0"

/-- Tells how a command line that is not carried out ends. -/
def endUsage : UsageError → IO UInt32
  | .helpRequested => do
    IO.print usage
    return 0
  | .versionRequested => do
    IO.println version
    return 0
  | _ => do
    IO.eprint usage
    return 2

/-- Carries out an invocation. -/
def execute (invocation : Invocation) : IO UInt32 := do
  IO.eprintln s!"INFO {invocation.options.describe}"
  let (result, notices) ← run disk invocation
  for notice in notices do
    IO.eprintln (line notice)
  match result with
  | .ok _ => return 0
  | .error error =>
    IO.eprintln s!"Error: {error.message}"
    return 1

end H266.CommandLine

/-- The entry of the program. -/
def main (arguments : List String) : IO UInt32 :=
  match H266.CommandLine.parse arguments with
  | .ok invocation => H266.CommandLine.execute invocation
  | .error error => H266.CommandLine.endUsage error
