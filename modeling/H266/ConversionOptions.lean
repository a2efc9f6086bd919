import H266.Error

/-!
# Conversion Options

What can be chosen when a stream is turned into a decoder configuration record or into a
stream with length fields.
-/

namespace H266

/-- The number of bytes of the length field before each NAL unit. -/
inductive LengthSize
  | one
  | two
  | four
  deriving DecidableEq, Repr

namespace LengthSize

/-- The number of bytes. -/
def bytes : LengthSize → Nat
  | one => 1
  | two => 2
  | four => 4

/-- The code of the size in a decoder configuration record. -/
def minus1 (size : LengthSize) : Nat :=
  size.bytes - 1

/-- The greatest length that the field can state. -/
def maxLength (size : LengthSize) : Nat :=
  1 <<< (8 * size.bytes) - 1

/-- The word for the size. -/
def name : LengthSize → String
  | one => "One"
  | two => "Two"
  | four => "Four"

/-- The size with the given number of bytes. -/
def ofBytes : Nat → Except Error LengthSize
  | 1 => .ok one
  | 2 => .ok two
  | 4 => .ok four
  | n => .error (.invalidData (.lengthSizeOption n))

end LengthSize

/-- The options of a conversion. -/
structure ConversionOptions where
  /-- The size of length fields, which is also stated in records. -/
  lengthSize : LengthSize
  /-- Whether the parameter sets in a record are marked as all there are. -/
  completeArrays : Bool
  /-- Whether parameter sets are left out of a stream with length fields. -/
  filterParameterSets : Bool
  deriving DecidableEq, Repr

namespace ConversionOptions

/-- Four length bytes, complete arrays, and nothing left out. -/
def standard : ConversionOptions :=
  ⟨.four, true, false⟩

/-- The options in one line of text. -/
def describe (options : ConversionOptions) : String :=
  s!"ConversionConfig \x7b length_size: {options.lengthSize.bytes} bytes, "
    ++ s!"ps_array_completeness: {options.completeArrays}, "
    ++ s!"filter_parameter_sets: {options.filterParameterSets} \x7d"

end ConversionOptions

end H266
