import Offside.Main
import Offside.Proofs.BlockTree
import Offside.Proofs.MaximalMunch
import Offside.Session
import Offside.Proofs.PrintedNumbers
import Offside.Proofs.PrintedStrings
import Offside.Proofs.PrintedValues
import Offside.Proofs.Places
import Offside.Proofs.RecordRoundTrip
import Offside.Proofs.BlockBalance
import Offside.Proofs.Sharing
import Offside.Proofs.LosslessSpans
import Offside.Proofs.LongLiterals
import Offside.Proofs.StrictLexing
import Offside.Proofs.FailingPulls
import Offside.Proofs.CommandModes
import Offside.Proofs.PrintedLines
import Offside.Proofs.Isolation
import Offside.Proofs.Concatenation
import Offside.Proofs.ScannedWords
import Offside.Proofs.BlankLines
import Offside.Proofs.MeasuredLines
import Offside.Proofs.Reindentation
import Offside.Proofs.Appending
import Offside.Proofs.Locations
import Offside.Proofs.ReadingOrder
import Offside.Proofs.Notes
import Offside.Proofs.VerboseRuns
import Offside.Proofs.Offsets
import Offside.Proofs.Slices
import Offside.Proofs.OffsetTables
import Offside.Proofs.MeasuredColumns
import Offside.Proofs.OpenWidths
import Offside.Proofs.StreamLength
import Offside.Proofs.HandingOver
import Offside.Proofs.OverflowKind
import Offside.Proofs.IntegerLiterals
import Offside.Proofs.RecordReading
import Offside.Proofs.ForeignRecords
import Offside.Proofs.FailureTexts
import Offside.Proofs.ContextStack
