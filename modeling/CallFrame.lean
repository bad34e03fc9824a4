import CallFrame.Assembler
import CallFrame.Main
import CallFrame.Scripted
import CallFrame.Proofs.Reading
import CallFrame.Proofs.SectionWalk
import CallFrame.Proofs.UnwindTable
import CallFrame.Proofs.IndexScan
import CallFrame.Proofs.IndexLookup
import CallFrame.Proofs.Decoding
import CallFrame.Proofs.PcBias
import CallFrame.Proofs.RowInvariants
import CallFrame.Proofs.ReturnAddress
import CallFrame.Proofs.Inquiry
import CallFrame.Proofs.Composition
import CallFrame.Proofs.SteadyAnswers
import CallFrame.Proofs.CacheTransparency
import CallFrame.Proofs.CallerReach
import CallFrame.Proofs.OpcodePolicy
import CallFrame.Proofs.RegisterFlow
import CallFrame.Proofs.Displacement
import CallFrame.Proofs.StoredNumbers
import CallFrame.Proofs.EntryRoundTrip
import CallFrame.Proofs.SectionRoundTrip
import CallFrame.Proofs.IntactPrefix
import CallFrame.Proofs.Parsing
import CallFrame.Proofs.InwardOrder
import CallFrame.Proofs.Recurrence
import CallFrame.Proofs.CheckedReading
import CallFrame.Proofs.ReadingInBounds
import CallFrame.Proofs.CheckedIndex
import CallFrame.Proofs.CheckedRun
import CallFrame.Proofs.StepOutcome
import CallFrame.Proofs.Brackets
import CallFrame.Proofs.ColumnRules
import CallFrame.Proofs.Locality
import CallFrame.Proofs.DegradedRows
import CallFrame.Proofs.TwoReadings
import CallFrame.Proofs.PlacelessReading
import CallFrame.Proofs.EntryForms
import CallFrame.Proofs.GroupNumbers
import CallFrame.Proofs.Coverage
import CallFrame.Proofs.JoinedPrograms
import CallFrame.Proofs.Windows
import CallFrame.Proofs.TrueOffsets
import CallFrame.Proofs.TrapFreedom
import CallFrame.Proofs.InPlace
import CallFrame.Proofs.ExactOffsets
import CallFrame.Proofs.Renumbering
import CallFrame.Proofs.AddressRule
import CallFrame.Proofs.InnerDecoding
import CallFrame.Proofs.ConsistentAnswers
import CallFrame.Proofs.KeptPointers
import CallFrame.Proofs.LenientNumbers
import CallFrame.Proofs.TableBounds
import CallFrame.Proofs.RuleApplication
import CallFrame.Proofs.CodeLengths
