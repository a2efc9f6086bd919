import H266.AnnexB
import H266.BitReader
import H266.BitWriter
import H266.Bits
import H266.ByteSink
import H266.ByteSource
import H266.CommandLine.Arguments
import H266.CommandLine.FileTree
import H266.CommandLine.Notice
import H266.CommandLine.Path
import H266.CommandLine.Run
import H266.Conversion
import H266.ConversionOptions
import H266.Error
import H266.ExpGolomb
import H266.GeneralConstraints
import H266.Layout
import H266.Main
import H266.NalUnit.Header
import H266.NalUnit.Type
import H266.OutputLayerSets
import H266.ParameterSet.Picture
import H266.ParameterSet.Sequence
import H266.ParameterSet.Video
import H266.ProfileTierLevel
import H266.Proofs.BitReader
import H266.Proofs.BitWriter
import H266.Proofs.Bits
import H266.Proofs.Building
import H266.Proofs.ByteSink
import H266.Proofs.ByteSource
import H266.Proofs.Collecting
import H266.Proofs.Consuming
import H266.Proofs.Decoding
import H266.Proofs.ExpGolomb
import H266.Proofs.Header
import H266.Proofs.Layout
import H266.Proofs.LevelCompleteness
import H266.Proofs.LevelDominance
import H266.Proofs.OlsParameters
import H266.Proofs.ParameterSet
import H266.Proofs.ProfileRecord
import H266.Proofs.ProfileTierLevel
import H266.Proofs.RecordBytes
import H266.Proofs.RecordRewriting
import H266.Proofs.RecordRoundTrip
import H266.Proofs.RecordSyntax
import H266.Proofs.RecordValidity
import H266.Proofs.SequenceParameterSet
import H266.Proofs.Steps
import H266.Proofs.SublayerLevels
import H266.Proofs.Subpictures
import H266.Proofs.TierAndLevel
import H266.Proofs.TimingHrd
import H266.Proofs.VideoParameterSet
import H266.Record.Aggregate
import H266.Record.Basic
import H266.Record.Builder
import H266.Record.ProfileRecord
import H266.Record.Reader
import H266.Record.Writer
import H266.TimingHrd
import H266.Proofs.RecordSize
import H266.Proofs.BoundedWriting
import H266.Proofs.Refusal
import H266.Proofs.SublayerCoverage
import H266.Proofs.MergedSummary
import H266.Proofs.OrderIndependence
import H266.Proofs.EmulationPrevention
import H266.Proofs.ItemRoundTrip
import H266.Proofs.StartCodes
import H266.Proofs.BuiltRecords
import H266.Proofs.SelfDelimiting
import H266.Proofs.Truncation
import H266.Proofs.LengthPrefixes
import H266.Proofs.PassThrough
import H266.Proofs.ParameterSetSeparation
import H266.Proofs.PtlRoundTrip
import H266.Proofs.ArrayGrouping
import H266.Proofs.MergedClosedForm
import H266.Proofs.Words.Arithmetic
import H266.Proofs.Words.Simulation
import H266.Proofs.Words.Reading
import H266.Proofs.Words.Bytes
import H266.Proofs.Words.Loops
import H266.Proofs.Words.ExpGolomb
import H266.Proofs.Words.ProfileTierLevel
import H266.Proofs.Words.TimingHrd
import H266.Proofs.Words.NalUnitHeader
import H266.Proofs.Words.SequenceParameterSet
import H266.Proofs.Words.OutputLayerSets
import H266.Proofs.Words.VideoParameterSet
import H266.Proofs.Words.DecoderRecord
import H266.Proofs.Words.Parsers
import H266.Proofs.LayerReachability
import H266.Proofs.BitOffsets
import H266.Proofs.TimingOffsets
import H266.Proofs.ProfileRecordOffsets
import H266.Proofs.BitCursor
import H266.Proofs.Words.BitCursor
import H266.Proofs.BoundedItems
import H266.Proofs.ExpGolombCodes
import H266.Proofs.Composed
import H266.Proofs.MalformedInput
import H266.Proofs.ByteView
