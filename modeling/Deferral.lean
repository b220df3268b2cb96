import Deferral.Config.Encode
import Deferral.Shutdown
import Deferral.Main
import Deferral.Proofs.Grants
import Deferral.Proofs.Effects
import Deferral.Proofs.Interleaving
import Deferral.Proofs.Execution
import Deferral.Proofs.Armings
import Deferral.Proofs.Endings
import Deferral.Proofs.PoolInvariant
import Deferral.Proofs.TerminalTransition
import Deferral.Proofs.StaleTimers
import Deferral.Proofs.Windows
import Deferral.Proofs.TimerOwnership
import Deferral.Proofs.VirtualClock
import Deferral.Proofs.Punctuality
import Deferral.Proofs.Timeliness
import Deferral.Proofs.ExactTimeouts
import Deferral.Proofs.Chronicle
import Deferral.Proofs.Deliveries
import Deferral.Proofs.Attendance
import Deferral.Proofs.Bookkeeping
import Deferral.Proofs.Tellings
import Deferral.Proofs.CallCounts
import Deferral.Proofs.LoggedWindows
import Deferral.Proofs.SequentialLog
import Deferral.Proofs.ListenerOrder
import Deferral.Proofs.Tracking
import Deferral.Proofs.RegistryContents
import Deferral.Proofs.Metering
import Deferral.Proofs.InFlight
import Deferral.Proofs.RequestCounts
import Deferral.Proofs.ThreadRuns
import Deferral.Proofs.Tickets
import Deferral.Proofs.Desks
import Deferral.Proofs.DeskTasks
import Deferral.Proofs.DeskClock
import Deferral.Proofs.Arrivals
import Deferral.Proofs.Cancellations
import Deferral.Proofs.Replies
import Deferral.Proofs.Settlement
import Deferral.Proofs.Turns
import Deferral.Proofs.Fates
import Deferral.Proofs.ServerSteps
import Deferral.Proofs.Ledgers
import Deferral.Proofs.Accounts
import Deferral.Proofs.Decisions
import Deferral.Proofs.Refusals
import Deferral.Proofs.Reordering
import Deferral.Proofs.CancelAll
import Deferral.Proofs.OwnListeners
import Deferral.Proofs.CancelOrder
import Deferral.Proofs.Waiting
import Deferral.Proofs.WaitingTasks
import Deferral.Proofs.WakeUps
import Deferral.Proofs.TimerFates
import Deferral.Proofs.FiringOrder
import Deferral.Proofs.WorkRank
import Deferral.Proofs.Completion
import Deferral.Proofs.Advances
import Deferral.Proofs.EntryOrder
import Deferral.Proofs.PlainValues
import Deferral.Proofs.UnitConversion
import Deferral.Proofs.PolicyTables
import Deferral.Proofs.Validation
import Deferral.Proofs.LoadedConfigs
import Deferral.Proofs.DocumentEdits
import Deferral.Proofs.RoundTrips
import Deferral.Proofs.Reloads
import Deferral.Proofs.ReloadImmunity
import Deferral.Proofs.Receivers
import Deferral.Proofs.Broadcasts
import Deferral.Proofs.TextBytes
import Deferral.Proofs.TextOrder
import Deferral.Proofs.RouteLists
import Deferral.Proofs.Escapes
import Deferral.Proofs.Addresses
import Deferral.Proofs.ClientRequests
