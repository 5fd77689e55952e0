import JobDispatch.Main
import JobDispatch.Proofs.Background.Endurance
import JobDispatch.Proofs.Background.Pacing
import JobDispatch.Proofs.Desk.Bookkeeping
import JobDispatch.Proofs.Desk.Commuting
import JobDispatch.Proofs.Desk.Draining
import JobDispatch.Proofs.Desk.Footprint
import JobDispatch.Proofs.Desk.Growth
import JobDispatch.Proofs.Desk.Liveness
import JobDispatch.Proofs.Desk.Provenance
import JobDispatch.Proofs.Desk.Rollback
import JobDispatch.Proofs.Desk.Stamps
import JobDispatch.Proofs.Http.Fault
import JobDispatch.Proofs.Interruption
import JobDispatch.Proofs.Storage
import JobDispatch.Proofs.Wire.Faithful
