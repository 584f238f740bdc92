import PathwayRuntime.Log.Authority
import PathwayRuntime.Log.Chain
import PathwayRuntime.Log.Held
import PathwayRuntime.Log.Registered
import PathwayRuntime.Trace.Running
import PathwayRuntime.Dispatch.Once
import PathwayRuntime.Dispatch.Concurrent
import PathwayRuntime.Dispatch.Rejected
import PathwayRuntime.Repair.Cycle
import PathwayRuntime.Trace.Grown
import PathwayRuntime.Dispatch.Repaired
import PathwayRuntime.Recovery.Closing
import PathwayRuntime.Result.Final
import PathwayRuntime.Result.Replayed
import PathwayRuntime.Result.Idempotent
import PathwayRuntime.Tenant.Isolation
import PathwayRuntime.Mcp.Inspected
import PathwayRuntime.Result.Finalized
import PathwayRuntime.Result.Verified
import PathwayRuntime.Result.Atomic
import PathwayRuntime.Dispatch.Uncertain
import PathwayRuntime.Result.Classified
import PathwayRuntime.Result.Standalone
import PathwayRuntime.Message.Once
import PathwayRuntime.Http.Once
import PathwayRuntime.Http.Contacted
import PathwayRuntime.Stdio.Chunks
import PathwayRuntime.Stdio.Closed
import PathwayRuntime.Stdio.Fresh
import PathwayRuntime.Stdio.Stdin
import PathwayRuntime.Mcp.Correlated
import PathwayRuntime.Model.Admission
import PathwayRuntime.Python.Dumps
import PathwayRuntime.Python.Loads
import PathwayRuntime.Ledger.Identity
import PathwayRuntime.Ledger.Fingerprint
import PathwayRuntime.Ledger.Lookup
import PathwayRuntime.Mcp.Limits
import PathwayRuntime.Mcp.Conversation
import PathwayRuntime.Stdio.RoundTrip
import PathwayRuntime.Mcp.Strict
import PathwayRuntime.Log.Tampered
import PathwayRuntime.Log.Redacted
import PathwayRuntime.Log.Projected
import PathwayRuntime.Message.Denied
import PathwayRuntime.Tenant.Claimed
import PathwayRuntime.Store.Keyed
import PathwayRuntime.Store.Restored
import PathwayRuntime.Store.Migrated
import PathwayRuntime.Store.Represents
import PathwayRuntime.Mcp.Retried
import PathwayRuntime.Ledger.Executors
import PathwayRuntime.Epistemic.Bundled
import PathwayRuntime.Http.Headers
import PathwayRuntime.Identity.Unexpired
import PathwayRuntime.Mcp.Evidence
import PathwayRuntime.Mcp.Prepared
import PathwayRuntime.Mcp.Shutdown
import PathwayRuntime.Message.Replayed
import PathwayRuntime.Model.Consistency
import PathwayRuntime.Parity.Consistent
import PathwayRuntime.Rpe.Read
