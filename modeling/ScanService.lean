import ScanService.Main
import ScanService.Rehearsal.Relay
import ScanService.Rehearsal.Serving
import ScanService.Proofs.Roster
import ScanService.Proofs.StoreCalls
import ScanService.Proofs.Custody
import ScanService.Proofs.RegistryOrder
import ScanService.Proofs.Exclusive
import ScanService.Proofs.CustodySteps
import ScanService.Proofs.Accounted
import ScanService.Proofs.Listed
import ScanService.Proofs.Dialogue
import ScanService.Proofs.DialogueRuns
import ScanService.Proofs.RetryCourse
import ScanService.Proofs.RetryPolicy
import ScanService.Proofs.Recovery
import ScanService.Proofs.Acts
import ScanService.Proofs.Condemned
import ScanService.Proofs.Cancellation
import ScanService.Proofs.Ledger
import ScanService.Proofs.RetryTally
import ScanService.Proofs.HandBacks
import ScanService.Proofs.BoxSearch
import ScanService.Proofs.Traffic
import ScanService.Proofs.TrafficSteps
import ScanService.Proofs.MinimumRest
import ScanService.Proofs.LineSteps
import ScanService.Proofs.QueueDiscipline
import ScanService.Proofs.Draining
import ScanService.Proofs.Reprovisioning
import ScanService.Proofs.StoredObjects
import ScanService.Proofs.TokenDiscipline
import ScanService.Proofs.Concealment
import ScanService.Proofs.ConcealmentSteps
import ScanService.Proofs.Secrecy
import ScanService.Proofs.Permanence
import ScanService.Proofs.FailedStart
import ScanService.Proofs.PlainRequests
import ScanService.Proofs.Shutdown
import ScanService.Proofs.Reconciliation
import ScanService.Proofs.Claims
import ScanService.Proofs.MachineNumbers
import ScanService.Proofs.NearestFirst
import ScanService.Proofs.Acquisition
import ScanService.Proofs.Purging
import ScanService.Proofs.MapObjects
import ScanService.Proofs.Expiries
import ScanService.Proofs.Alike
import ScanService.Proofs.AlikeSteps
import ScanService.Proofs.Persistence
import ScanService.Proofs.BestEffort
import ScanService.Proofs.Numerals
import ScanService.Proofs.ProxyTexts
import ScanService.Proofs.JsonText
import ScanService.Proofs.SavedSnapshot
import ScanService.Proofs.ObjectsById
import ScanService.Proofs.Validation
import ScanService.Proofs.Quotients
import ScanService.Proofs.Startup
import ScanService.Proofs.EncounterKeys
import ScanService.Proofs.RetryRules
