import AdvisoryStore.Session.Transcript
import AdvisoryStore.Session.Waiting
import AdvisoryStore.Proofs.SingleComputation
import AdvisoryStore.Proofs.Agreement
import AdvisoryStore.Proofs.KeyIndependence
import AdvisoryStore.Proofs.Glances
import AdvisoryStore.Proofs.Failure
import AdvisoryStore.Proofs.Handles
import AdvisoryStore.Proofs.Tenure
import AdvisoryStore.Proofs.Overtaking
import AdvisoryStore.Proofs.Tracing
import AdvisoryStore.Proofs.SharedStore
import AdvisoryStore.Proofs.Accounting
import AdvisoryStore.Proofs.DemoWorkload
import AdvisoryStore.Proofs.Escapes
import AdvisoryStore.Proofs.Awaiting
import AdvisoryStore.Proofs.Exits
import AdvisoryStore.Proofs.Configuration
import AdvisoryStore.Proofs.RecordHistory
import AdvisoryStore.Proofs.InspectionBody
import AdvisoryStore.Proofs.ExpositionReading
import AdvisoryStore.Proofs.Founding
import AdvisoryStore.Proofs.Generations
import AdvisoryStore.Proofs.Terms
import AdvisoryStore.Proofs.Words
