import Invocation.Session.Run
import Invocation.Proofs.Call.Portable
import Invocation.Proofs.Call.Words
import Invocation.Proofs.Machine.Blocks
import Invocation.Proofs.Machine.Slots
import Invocation.Proofs.Machine.Execution
import Invocation.Proofs.Machine.NativeCall
import Invocation.Proofs.Machine.Refinement
import Invocation.Proofs.Machine.Bounds
import Invocation.Proofs.Machine.WellFormed
import Invocation.Proofs.Machine.Soundness
import Invocation.Proofs.Association
import Invocation.Proofs.Compiler
import Invocation.Proofs.Validation
import Invocation.Proofs.Cache.Table
import Invocation.Proofs.Cache.Invariant
import Invocation.Proofs.Cache.Uniqueness
import Invocation.Proofs.Cache.Attendance
import Invocation.Proofs.Cache.Register
import Invocation.Proofs.Cache.Retry
import Invocation.Proofs.Cache.Lifecycle
import Invocation.Proofs.Cache.Progress
import Invocation.Proofs.Cache.Accounts
import Invocation.Proofs.Cache.Settled
import Invocation.Proofs.Cache.Client
import Invocation.Proofs.Cache.Emission
import Invocation.Proofs.Cache.History
import Invocation.Proofs.Cache.Restoration
import Invocation.Proofs.Program.Run
import Invocation.Proofs.Program.Entries
import Invocation.Proofs.Program.Identity
import Invocation.Proofs.Program.Order
import Invocation.Proofs.Ownership.Balance
import Invocation.Proofs.Ownership.Holding
import Invocation.Proofs.Ownership.Calls
import Invocation.Proofs.Codec
import Invocation.Proofs.Config
import Invocation.Proofs.Equality
import Invocation.Proofs.Signature
import Invocation.Proofs.Mismatch
