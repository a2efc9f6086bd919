import H266.CommandLine.Arguments
import H266.Record.Basic

/-!
# Notices

What the program tells about its work. A notice is rendered as a level, a message, and named
fields whose values are texts.
-/

namespace H266.CommandLine

/-- How important a notice is. -/
inductive Level
  | error
  | warning
  | info
  | debug
  deriving DecidableEq, Repr

/-- The word for a level. -/
def Level.name : Level → String
  | error => "ERROR"
  | warning => "WARN"
  | info => "INFO"
  | debug => "DEBUG"

/-- Something that the program tells about its work. -/
inductive Notice
  /-- An input was read and its processing begins. -/
  | processing (input : String) (size : Nat) (task : Task)
  /-- A stream with length fields was made. -/
  | streamConverted (size dropped : Nat)
  /-- The input is a record already. -/
  | alreadyRecord (size : Nat)
  /-- NAL units of the input have no place in a record. -/
  | nalUnitsSkipped (count : Nat)
  /-- A record cannot be written. -/
  | recordRejected (error : Error)
  /-- A record with a description of the stream is written. -/
  | writingRecord (lengthSizeMinus1 : Nat) (stream : StreamInfo)
  /-- A record with this array is written. -/
  | writingArray (array : NalUnitArray)
  | outputWritten (output : String)
  | recordWritten (size : Nat)
  | streamWritten (size dropped : Nat)
  /-- A record is followed by other data. -/
  | trailingData (recordSize inputSize : Nat)
  /-- The outline of a record that is shown. -/
  | recordShown (record : DecoderRecord)
  /-- The description of the stream in a record that is shown. -/
  | streamShown (stream : StreamInfo)
  /-- The profile, tier and level in a record that is shown. -/
  | profileShown (profile : ProfileRecord)
  /-- An array of a record that is shown. -/
  | arrayShown (array : NalUnitArray)
  /-- A record that is shown could not be written. -/
  | notWritable (error : Error)
  deriving DecidableEq, Repr

namespace Notice

/-- The level of a notice. -/
def level : Notice → Level
  | streamConverted .. | alreadyRecord .. | writingRecord .. | writingArray .. => .debug
  | nalUnitsSkipped .. | recordRejected .. | trailingData .. | notWritable .. => .warning
  | _ => .info

/-- The message of a notice. -/
def message : Notice → String
  | processing .. => "processing"
  | streamConverted .. => "converted to length-prefixed stream"
  | alreadyRecord .. => "input is already a decoder configuration record"
  | nalUnitsSkipped .. => "NAL units not stored in the decoder configuration record"
  | recordRejected .. => "rejecting decoder configuration record"
  | writingRecord .. => "writing decoder configuration record"
  | writingArray .. => "NAL unit array"
  | outputWritten .. => "output written"
  | recordWritten .. => "wrote decoder configuration record"
  | streamWritten .. => "wrote length-prefixed stream"
  | trailingData .. => "trailing data after the record"
  | recordShown .. => "VVCDecoderConfigurationRecord"
  | streamShown .. => "stream"
  | profileShown .. => "profile, tier and level"
  | arrayShown .. => "NAL unit array"
  | notWritable .. => "record would be rejected when written"

/-- A list of texts in brackets. -/
def bracketed (items : List String) : String :=
  "[" ++ ", ".intercalate items ++ "]"

/-- The named fields of a notice. -/
def fields : Notice → List (String × String)
  | processing input size task =>
    [("input", input), ("size", toString size), ("task", task.name)]
  | streamConverted size dropped =>
    [("size", toString size), ("ps_count", toString dropped)]
  | alreadyRecord size => [("size", toString size)]
  | nalUnitsSkipped count => [("skipped", toString count)]
  | recordRejected error => [("err", error.message)]
  | writingRecord lengthSizeMinus1 stream =>
    [("length_size_minus_one", toString lengthSizeMinus1),
     ("num_sublayers", toString stream.sublayers),
     ("constant_frame_rate", stream.frameRate.name),
     ("chroma_format_idc", toString stream.chromaFormat),
     ("bit_depth_minus8", toString stream.bitDepthMinus8),
     ("general_profile_idc", toString stream.profile.profile),
     ("general_tier_flag", toString stream.profile.tier),
     ("general_level_idc", toString stream.profile.level),
     ("num_bytes_constraint_info", toString stream.profile.constraintInfo.length),
     ("max_picture_width", toString stream.maxWidth),
     ("max_picture_height", toString stream.maxHeight),
     ("avg_frame_rate", toString stream.averageFrameRate)]
  | writingArray array =>
    [("nal_unit_type", array.type.name),
     ("array_completeness", toString array.complete),
     ("num_nalus", toString array.nalUnits.length)]
  | outputWritten output => [("output", output)]
  | recordWritten size => [("size", toString size)]
  | streamWritten size dropped =>
    [("size", toString size), ("dropped_parameter_sets", toString dropped)]
  | trailingData recordSize inputSize =>
    [("record_size", toString recordSize), ("input_size", toString inputSize)]
  | recordShown record =>
    [("length_size", toString (record.lengthSizeMinus1 + 1)),
     ("ptl_present", toString record.stream.isSome),
     ("num_arrays", toString record.arrays.length)]
  | streamShown stream =>
    [("ols_idx", toString stream.olsIndex),
     ("num_sublayers", toString stream.sublayers),
     ("constant_frame_rate", stream.frameRate.name),
     ("chroma_format_idc", toString stream.chromaFormat),
     ("bit_depth", toString (stream.bitDepthMinus8 + 8)),
     ("max_picture_width", toString stream.maxWidth),
     ("max_picture_height", toString stream.maxHeight),
     ("avg_frame_rate", toString stream.averageFrameRate)]
  | profileShown profile =>
    [("profile", toString profile.profile),
     ("tier", toString profile.tier),
     ("level", toString profile.level),
     ("frame_only", toString profile.frameOnly),
     ("multilayer", toString profile.multilayer),
     ("constraint_info_bytes", toString profile.constraintInfo.length),
     ("sub_profiles", bracketed (profile.subProfiles.map toString))]
  | arrayShown array =>
    [("nal_unit_type", array.type.name),
     ("complete", toString array.complete),
     ("sizes", bracketed (array.nalUnits.map fun nalUnit => toString nalUnit.length))]
  | notWritable error => [("err", error.message)]

end Notice

end H266.CommandLine
