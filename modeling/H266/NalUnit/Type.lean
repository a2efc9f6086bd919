/-!
# NAL Unit Types

The thirty-two values of `nal_unit_type` and the classes of them that matter to a decoder
configuration record: parameter sets, the types that a record may hold, and the types of
which it may hold only one.

## Main results

* `NalUnitType.ofCode_code`: every type is found again by its code.
* `NalUnitType.code_ofCode`: reading a code keeps its lowest five bits.
-/

namespace H266

/-- The type of a NAL unit, `nal_unit_type`, which is coded in five bits. -/
inductive NalUnitType
  | trail
  | stsa
  | radl
  | rasl
  | reservedVcl4
  | reservedVcl5
  | reservedVcl6
  | idrWithRadl
  | idrWithoutLeading
  | cra
  | gdr
  | reservedIrap11
  | operatingPoint
  | decodingCapability
  | videoParameterSet
  | sequenceParameterSet
  | pictureParameterSet
  | prefixAps
  | suffixAps
  | pictureHeader
  | accessUnitDelimiter
  | endOfSequence
  | endOfBitstream
  | prefixSei
  | suffixSei
  | fillerData
  | reservedNonVcl26
  | reservedNonVcl27
  | unspecified28
  | unspecified29
  | unspecified30
  | unspecified31
  deriving DecidableEq, Repr

namespace NalUnitType

/-- The value of `nal_unit_type`. -/
def code : NalUnitType → Nat
  | trail => 0
  | stsa => 1
  | radl => 2
  | rasl => 3
  | reservedVcl4 => 4
  | reservedVcl5 => 5
  | reservedVcl6 => 6
  | idrWithRadl => 7
  | idrWithoutLeading => 8
  | cra => 9
  | gdr => 10
  | reservedIrap11 => 11
  | operatingPoint => 12
  | decodingCapability => 13
  | videoParameterSet => 14
  | sequenceParameterSet => 15
  | pictureParameterSet => 16
  | prefixAps => 17
  | suffixAps => 18
  | pictureHeader => 19
  | accessUnitDelimiter => 20
  | endOfSequence => 21
  | endOfBitstream => 22
  | prefixSei => 23
  | suffixSei => 24
  | fillerData => 25
  | reservedNonVcl26 => 26
  | reservedNonVcl27 => 27
  | unspecified28 => 28
  | unspecified29 => 29
  | unspecified30 => 30
  | unspecified31 => 31

/-- The type with the given code, of which only the lowest five bits count. -/
def ofCode (n : Nat) : NalUnitType :=
  match n % 32 with
  | 0 => trail
  | 1 => stsa
  | 2 => radl
  | 3 => rasl
  | 4 => reservedVcl4
  | 5 => reservedVcl5
  | 6 => reservedVcl6
  | 7 => idrWithRadl
  | 8 => idrWithoutLeading
  | 9 => cra
  | 10 => gdr
  | 11 => reservedIrap11
  | 12 => operatingPoint
  | 13 => decodingCapability
  | 14 => videoParameterSet
  | 15 => sequenceParameterSet
  | 16 => pictureParameterSet
  | 17 => prefixAps
  | 18 => suffixAps
  | 19 => pictureHeader
  | 20 => accessUnitDelimiter
  | 21 => endOfSequence
  | 22 => endOfBitstream
  | 23 => prefixSei
  | 24 => suffixSei
  | 25 => fillerData
  | 26 => reservedNonVcl26
  | 27 => reservedNonVcl27
  | 28 => unspecified28
  | 29 => unspecified29
  | 30 => unspecified30
  | _ => unspecified31

/-- The word for the type in messages and in the log. -/
def name : NalUnitType → String
  | trail => "TrailNut"
  | stsa => "StsaNut"
  | radl => "RadlNut"
  | rasl => "RaslNut"
  | reservedVcl4 => "RsvVcl4"
  | reservedVcl5 => "RsvVcl5"
  | reservedVcl6 => "RsvVcl6"
  | idrWithRadl => "IdrWRadl"
  | idrWithoutLeading => "IdrNLp"
  | cra => "CraNut"
  | gdr => "GdrNut"
  | reservedIrap11 => "RsvIrap11"
  | operatingPoint => "OpiNut"
  | decodingCapability => "DciNut"
  | videoParameterSet => "VpsNut"
  | sequenceParameterSet => "SpsNut"
  | pictureParameterSet => "PpsNut"
  | prefixAps => "PrefixApsNut"
  | suffixAps => "SuffixApsNut"
  | pictureHeader => "PhNut"
  | accessUnitDelimiter => "AudNut"
  | endOfSequence => "EosNut"
  | endOfBitstream => "EobNut"
  | prefixSei => "PrefixSeiNut"
  | suffixSei => "SuffixSeiNut"
  | fillerData => "FdNut"
  | reservedNonVcl26 => "RsvNvcl26"
  | reservedNonVcl27 => "RsvNvcl27"
  | unspecified28 => "UnspecNvcl28"
  | unspecified29 => "UnspecNvcl29"
  | unspecified30 => "UnspecNvcl30"
  | unspecified31 => "UnspecNvcl31"

/-! ### Classes -/

/-- The types of coded slices, whose codes are the lowest twelve. -/
def isVcl (type : NalUnitType) : Bool :=
  type.code ≤ 11

/-- The video, sequence and picture parameter sets. -/
def isParameterSet : NalUnitType → Bool
  | videoParameterSet | sequenceParameterSet | pictureParameterSet => true
  | _ => false

/-- The types that are collected from a stream into a decoder configuration record. -/
def isCollected : NalUnitType → Bool
  | operatingPoint | videoParameterSet | sequenceParameterSet | pictureParameterSet
  | prefixSei | suffixSei => true
  | _ => false

/-- The types that an array of a record may hold: the collected ones and the decoding
capability information, which is accepted in a record but never taken from a stream. -/
def isStorable (type : NalUnitType) : Bool :=
  type.isCollected || type == decodingCapability

/-- The types of which a record holds exactly one NAL unit, so that their arrays carry no
count. -/
def isSingle : NalUnitType → Bool
  | operatingPoint | decodingCapability => true
  | _ => false

/-! ### Codes -/

/-- Every type is found again by its code. -/
@[simp] theorem ofCode_code (type : NalUnitType) : ofCode type.code = type := by
  cases type <;> rfl

theorem code_lt (type : NalUnitType) : type.code < 32 := by
  cases type <;> decide

/-- Reading a code keeps its lowest five bits. -/
theorem code_ofCode (n : Nat) : (ofCode n).code = n % 32 := by
  have h : ∀ m < 32, (ofCode m).code = m := by decide
  have hn : n % 32 < 32 := Nat.mod_lt _ (by decide)
  have := h _ hn
  rwa [ofCode, Nat.mod_mod, ← ofCode] at this

/-- The type that the second byte of a NAL unit states, if there is a second byte. The two
header bytes are not checked further. -/
def ofHeaderBytes? : List UInt8 → Option NalUnitType
  | _ :: second :: _ => some (ofCode (second.toNat / 8))
  | _ => none

end NalUnitType

/-- The three kinds of parameter sets. -/
inductive ParameterSetKind
  | video
  | sequence
  | picture
  deriving DecidableEq, Repr

namespace ParameterSetKind

/-- The usual abbreviation of the kind. -/
def abbreviation : ParameterSetKind → String
  | video => "VPS"
  | sequence => "SPS"
  | picture => "PPS"

/-- The type of the NAL units that hold parameter sets of this kind. -/
def nalUnitType : ParameterSetKind → NalUnitType
  | video => .videoParameterSet
  | sequence => .sequenceParameterSet
  | picture => .pictureParameterSet

end ParameterSetKind

end H266
