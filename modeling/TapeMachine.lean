import TapeMachine.Main
import TapeMachine.Stock
import TapeMachine.Proofs.Configuration
import TapeMachine.Proofs.TokenGrammar
import TapeMachine.Proofs.Doubling
import TapeMachine.Proofs.Increment
import TapeMachine.Proofs.ClauseGrammar
import TapeMachine.Proofs.Trimming
import TapeMachine.Proofs.Isometry
import TapeMachine.Proofs.DumpedClauses
import TapeMachine.Proofs.Jobs
import TapeMachine.Proofs.RecordedTapes
import TapeMachine.Proofs.Resumption
import TapeMachine.Proofs.Locality
import TapeMachine.Proofs.MoreRules
import TapeMachine.Proofs.Batches
import TapeMachine.Proofs.SessionCourses
import TapeMachine.Proofs.ScanFaults
import TapeMachine.Proofs.TapeHistory
import TapeMachine.Proofs.Concatenation
import TapeMachine.Proofs.SavedSetups
import TapeMachine.Proofs.MainFiles
import TapeMachine.Proofs.LoggedEntries
import TapeMachine.Proofs.EditedSessions
import TapeMachine.Proofs.TapeTranslations
import TapeMachine.Proofs.ClauseFaults
import TapeMachine.Proofs.BatchFaults
import TapeMachine.Proofs.SparedFiles
import TapeMachine.Proofs.SessionRuns
import TapeMachine.Proofs.ProgressLines
import TapeMachine.Proofs.ShownTables
import TapeMachine.Proofs.TableGrids
import TapeMachine.Proofs.Flipping
import TapeMachine.Proofs.TapeFields
import TapeMachine.Proofs.StepLimits
import TapeMachine.Proofs.ToolAgreement
import TapeMachine.Proofs.StateNumerals
import TapeMachine.Proofs.TapeWindows
import TapeMachine.Proofs.TableHistories
import TapeMachine.Proofs.AcceptedSettings
