import H266.CommandLine.Notice
import H266.Conversion
import H266.Record.Reader

/-!
# Carrying Out Commands

A command reads its input from a storage, does its task, and writes the output to the same
storage. What the storage is is left open: files on a disk, or a tree of files in memory.
What is told about the work is a list of notices, and tasks that do not depend on the storage
are pure functions of the data.
-/

namespace H266.CommandLine

/-! ### Storage -/

/-- A place that inputs are read from and outputs are written to, by path. -/
structure Storage (m : Type → Type) where
  read : String → m (Except IoFailure Bytes)
  /-- Makes the directory that a path lies in, and those above it. -/
  makeParents : String → m (Except IoFailure Unit)
  write : String → Bytes → m (Except IoFailure Unit)

/-! ### Errors -/

/-- Why the input of a command is refused. -/
inductive Refusal
  | empty (input : String)
  | notRecord
  deriving DecidableEq, Repr

/-- What a command fails with. -/
inductive CommandError
  | io (failure : IoFailure)
  | data (error : Error)
  | refused (refusal : Refusal)
  deriving DecidableEq, Repr

/-- The message for a refused input. -/
def Refusal.message : Refusal → String
  | empty input => s!"{input} is empty"
  | notRecord =>
    "not a decoder configuration record, the first byte must have its 5 reserved bits set"

/-- The message for an error. -/
def CommandError.message : CommandError → String
  | io failure => s!"I/O error: {failure.text}"
  | data error => s!"VVC error: {error.message}"
  | refused refusal => s!"Invalid input: {refusal.message}"

/-! ### Tasks -/

/-- The notices about a record being written. -/
def writeNotices (record : DecoderRecord) : List Notice :=
  match record.validate with
  | .error error => [.recordRejected error]
  | .ok _ =>
    (record.stream.map (.writingRecord record.lengthSizeMinus1)).toList
      ++ record.arrays.map .writingArray

/-- How many NAL units of a byte stream have no place in a record. -/
def skippedCount (data : Bytes) : Nat :=
  (AnnexB.nalUnits data).countP fun nalUnit => !RecordBuilder.isCollected nalUnit

/-- The notices about a record being made of an input. -/
def recordNotices (options : ConversionOptions) (data : Bytes) : List Notice :=
  if data.length < DecoderRecord.minInput then
    []
  else if DecoderRecord.isRecordFormat data then
    [.alreadyRecord data.length]
  else if !AnnexB.hasStartCode data then
    []
  else
    match RecordBuilder.ofAnnexB options data with
    | .error _ => []
    | .ok builder =>
      let skipped := skippedCount data
      (if 0 < skipped then [.nalUnitsSkipped skipped] else [])
        ++ match builder.finish with
          | .error _ => []
          | .ok record => writeNotices record

/-- The record that a byte string holds, which must start as a record does. Bytes after the
record are not looked at. -/
def inspect (data : Bytes) : Except CommandError DecoderRecord :=
  if !DecoderRecord.isRecordFormat data then
    .error (.refused .notRecord)
  else
    match DecoderRecord.parse data with
    | .error error => .error (.data error)
    | .ok (record, _) => .ok record

/-- The notices that show a record read from an input of the given size. -/
def inspectNotices (record : DecoderRecord) (inputSize : Nat) : List Notice :=
  (if record.size ≠ inputSize then [.trailingData record.size inputSize] else [])
    ++ [.recordShown record]
    ++ (record.stream.map fun stream =>
        [Notice.streamShown stream, .profileShown stream.profile]).getD []
    ++ record.arrays.map .arrayShown
    ++ match record.validate with
      | .error error => [.notWritable error]
      | .ok _ => []

/-! ### Commands -/

/-- A step on a storage that tells notices and may fail. -/
abbrev CommandM (m : Type → Type) := ExceptT CommandError (StateT (List Notice) m)

section
variable {m : Type → Type} [Monad m]

/-- Tells notices. -/
def tell (notices : List Notice) : CommandM m Unit :=
  modify (· ++ notices)

/-- Asks the storage. -/
def ask {α : Type} (answer : m (Except IoFailure α)) : CommandM m α := do
  match ← (monadLift answer : StateT (List Notice) m _) with
  | .ok value => return value
  | .error failure => throw (.io failure)

/-- Passes on the result of a conversion. -/
def ofResult {α : Type} (result : Except Error α) : CommandM m α :=
  match result with
  | .ok value => pure value
  | .error error => throw (.data error)

/-- Writes the output, making the directory for it first. -/
def writeOutput (storage : Storage m) (output : String) (data : Bytes) : CommandM m Unit := do
  ask (storage.makeParents output)
  ask (storage.write output data)
  tell [.outputWritten output]

/-- Does a task on the data of an input. -/
def runTask (storage : Storage m) (options : ConversionOptions) (task : Task) (data : Bytes) :
    CommandM m Unit := do
  match task with
  | .record output =>
    tell (recordNotices options data)
    let record ← ofResult (DecoderRecord.bytesOf options data)
    writeOutput storage output record
    tell [.recordWritten record.length]
  | .lengthPrefixed output =>
    let stream ← ofResult (LengthPrefixedStream.ofAnnexB options data)
    tell [.streamConverted stream.data.length stream.dropped]
    writeOutput storage output stream.data
    tell [.streamWritten stream.data.length stream.dropped]
  | .inspect =>
    match inspect data with
    | .ok record => tell (inspectNotices record data.length)
    | .error error => throw error

/-- Carries out an invocation. -/
def runInvocation (storage : Storage m) (invocation : Invocation) : CommandM m Unit := do
  let data ← ask (storage.read invocation.input)
  if data.isEmpty then
    throw (.refused (.empty invocation.input))
  tell [.processing invocation.input data.length invocation.task]
  runTask storage invocation.options invocation.task data

/-- Carries out an invocation and returns how this ended and the notices that are to be
shown: all of them if the invocation is verbose, and otherwise those above the debug
level. -/
def run (storage : Storage m) (invocation : Invocation) :
    m (Except CommandError Unit × List Notice) := do
  let (result, notices) ← ((runInvocation storage invocation).run).run []
  return (result, notices.filter fun notice => invocation.verbose || notice.level ≠ .debug)

end

end H266.CommandLine
