import PathwayRuntime.Model.Retained

/-!
# Shutting down a subprocess

* `McpProcessHandle`: what the methods of the handle do in one shutdown; `HandleCall`: a call of one of them.
* `callHandle`, `waitHandle`: `_call` and `_wait`; `McpSubprocessLifecycle.attempt`: the `try` block.
* `McpSubprocessLifecycle.shutdown`: its outcome, with the calls it made.
-/

set_option autoImplicit false

namespace Rpr

/-- `McpProcessLifecycleError`. -/
def mcpProcessLifecycleError (message : PyText) : PyException :=
  .ofClass "McpProcessLifecycleError" ["McpTransportError", "RuntimeError"] message

/-- What the methods return or raise; `wait` returns any object, the first, the second and the third time. -/
structure McpProcessHandle where
  closeStdin : Except PyException Unit
  gracefulWait : Except PyException PyValue
  terminate : Except PyException Unit
  terminateWait : Except PyException PyValue
  kill : Except PyException Unit
  killWait : Except PyException PyValue
  closePipes : Except PyException Unit

/-- A method that was called, with what it returned or raised. -/
inductive HandleCall : Type
  | closeStdin (x : Except PyException Unit)
  | wait (timeoutSeconds : PyFloat) (x : Except PyException PyValue)
  | terminate (x : Except PyException Unit)
  | kill (x : Except PyException Unit)
  | closePipes (x : Except PyException Unit)

/-- A computation that calls the handle, with the calls in the order they were made. -/
abbrev Handled : Type → Type := ExceptT PyException (StateM (List HandleCall))

/-- `_call`. -/
def callHandle (label : String) (record : Except PyException Unit → HandleCall) (x : Except PyException Unit) :
    Handled Unit := do
  modify fun calls => calls ++ [record x]
  match x with
  | .ok () => return
  | .error e =>
    if e.isA "Exception" then
      throw (mcpProcessLifecycleError (PyText.utf8 ("failed to " ++ label ++ ": ") ++ e.describe))
    else throw e

/-- `_wait`: a truth value is no exit code. -/
def waitHandle (timeoutSeconds : PyFloat) (x : Except PyException PyValue) : Handled ℤ := do
  modify fun calls => calls ++ [.wait timeoutSeconds x]
  match x with
  | .error e =>
    if e.isA "TimeoutError" then throw e
    else if e.isA "Exception" then
      throw (mcpProcessLifecycleError (PyText.utf8 "MCP process wait failed: " ++ e.describe))
    else throw e
  | .ok (.int exitCode) => return exitCode
  | .ok _ => throw (mcpProcessLifecycleError "MCP process wait returned a non-integer exit code")

/-- `McpSubprocessLifecycle`, over its handle. -/
structure McpSubprocessLifecycle where
  gracefulTimeoutSeconds : PyFloat
  terminateTimeoutSeconds : PyFloat
  killTimeoutSeconds : PyFloat
  result : Option McpProcessExit
  closing : Bool

/-- How one shutdown went. -/
structure ShutdownOutcome where
  returned : Except PyException McpProcessExit
  calls : List HandleCall
  lifecycle : McpSubprocessLifecycle

namespace McpSubprocessLifecycle

variable (handle : McpProcessHandle) (s : McpSubprocessLifecycle)

/-- The process is killed. -/
def killed : Handled McpProcessExit := do
  callHandle "kill process" .kill handle.kill
  try
    let exitCode ← waitHandle s.killTimeoutSeconds handle.killWait
    pure ⟨exitCode, false, true, true⟩
  catch e =>
    if e.isA "TimeoutError" then throw (mcpProcessLifecycleError "MCP process did not exit after kill") else throw e

/-- The process is terminated, and killed when it does not exit in time. -/
def terminated : Handled McpProcessExit := do
  callHandle "terminate process" .terminate handle.terminate
  try
    let exitCode ← waitHandle s.terminateTimeoutSeconds handle.terminateWait
    pure ⟨exitCode, false, true, false⟩
  catch e =>
    if e.isA "TimeoutError" then s.killed handle else throw e

/-- The `try` block of `shutdown`. -/
def attempt : Handled McpProcessExit := do
  callHandle "close stdin" .closeStdin handle.closeStdin
  try
    let exitCode ← waitHandle s.gracefulTimeoutSeconds handle.gracefulWait
    pure ⟨exitCode, true, false, false⟩
  catch e =>
    if e.isA "TimeoutError" then s.terminated handle else throw e

/-- What is raised for the primary error. -/
def shutdownError (e : PyException) : PyException :=
  if e.isA "McpProcessLifecycleError" then e
  else mcpProcessLifecycleError (PyText.utf8 "MCP process shutdown failed: " ++ e.describe)

/-- `shutdown`: the pipes are closed however the attempt ended. -/
def shutdown : ShutdownOutcome :=
  match s.result with
  | some result => ⟨.ok result, [], s⟩
  | none =>
    if s.closing then ⟨.error (mcpProcessLifecycleError "MCP process shutdown is already in progress"), [], s⟩
    else
      let (attempted, calls) := (s.attempt handle).run []
      let (closed, calls) := (callHandle "close process pipes" .closePipes handle.closePipes).run calls
      match attempted, closed with
      | .ok result, .ok () => ⟨.ok result, calls, { s with result := some result, closing := false }⟩
      | .ok _, .error e => ⟨.error (shutdownError e), calls, { s with closing := false }⟩
      | .error e, _ => ⟨.error (shutdownError e), calls, { s with closing := false }⟩

end McpSubprocessLifecycle

end Rpr
