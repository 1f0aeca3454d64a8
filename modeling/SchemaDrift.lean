import SchemaDrift.Main
import SchemaDrift.Plan.Execution
import SchemaDrift.Proofs.AbsentDatabase
import SchemaDrift.Proofs.AccessHandover
import SchemaDrift.Proofs.AccessReached
import SchemaDrift.Proofs.AccessRoundTrip
import SchemaDrift.Proofs.AccountConflicts
import SchemaDrift.Proofs.AccountSettlement
import SchemaDrift.Proofs.Clearance
import SchemaDrift.Proofs.ComparedDefaults
import SchemaDrift.Proofs.ComparedEncoding
import SchemaDrift.Proofs.DeclarationOrder
import SchemaDrift.Proofs.DeclaredTables
import SchemaDrift.Proofs.EmittedAlterations
import SchemaDrift.Proofs.FaultPlaces
import SchemaDrift.Proofs.FewestMoves
import SchemaDrift.Proofs.GapClosing
import SchemaDrift.Proofs.GuardedRun
import SchemaDrift.Proofs.HonouredOptions
import SchemaDrift.Proofs.IncludeCycles
import SchemaDrift.Proofs.IncludeReading
import SchemaDrift.Proofs.KeyNaming
import SchemaDrift.Proofs.KeysReached
import SchemaDrift.Proofs.LosslessOrder
import SchemaDrift.Proofs.MachineWords
import SchemaDrift.Proofs.MemberRows
import SchemaDrift.Proofs.NameReading
import SchemaDrift.Proofs.NumberGuard
import SchemaDrift.Proofs.NumeralWidth
import SchemaDrift.Proofs.OptionRoundTrip
import SchemaDrift.Proofs.PlanQueries
import SchemaDrift.Proofs.RememberedAccess
import SchemaDrift.Proofs.Respelling
import SchemaDrift.Proofs.RoundedRows
import SchemaDrift.Proofs.RunAccount
import SchemaDrift.Proofs.ScriptJoin
import SchemaDrift.Proofs.ScopeLattice
import SchemaDrift.Proofs.StatementGroups
import SchemaDrift.Proofs.StoredValues
import SchemaDrift.Proofs.StringReading
import SchemaDrift.Proofs.StringRows
import SchemaDrift.Proofs.TableRoundTrip
import SchemaDrift.Proofs.TokenTiling
