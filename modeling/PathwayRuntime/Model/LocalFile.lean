import PathwayRuntime.Model.Attempts
import PathwayRuntime.Python.Repr
import PathwayRuntime.Python.Utf8

/-!
# The local file executor

* `localFingerprint`: `LocalFileExecutor._fingerprint`, of the sorted `repr` of the parameters.
* `FileLibrary`, `FileEnv`: the built-in functions the executor calls, and what the file system does in one call.
* `LocalFileExecutor.execute`: the `try` block is `replaceTextFile`.
-/

set_option autoImplicit false

namespace Rpr

/-! ## The fingerprint -/

/-- `a <= b`, of pairs of texts. -/
def pairLe (a b : PyText × String) : Bool :=
  a.1.codes < b.1.codes || a.1.codes = b.1.codes && (PyText.utf8 a.2).codes ≤ (PyText.utf8 b.2).codes

/-- `(str(k), repr(v)) for k, v in parameters.items()`. -/
def reprEntries (lib : ReprLibrary) : PyDict → Except PyException (List (PyText × String))
  | [] => .ok []
  | (key, value) :: fields => do
    let text ← value.repr lib
    .ok ((key.form, String.ofList text) :: (← reprEntries lib fields))

/-- The tuple whose `repr` is hashed. -/
def identityTuple (operationId action : String) (entries : List (PyText × String)) : PyValue :=
  .tuple [.text operationId, .text action,
    .list ((entries.insertionSort fun a b => pairLe a b = true).map fun entry => .tuple [.str entry.1, .text entry.2])]

/-- `LocalFileExecutor._fingerprint`. -/
def localFingerprint (py : Platform) (lib : ReprLibrary) (request : ExecutionRequest) : Except PyException String := do
  let entries ← reprEntries lib request.parameters
  let canonical ← (identityTuple request.operationId request.action entries).repr lib
  .ok (py.sha256 canonical)

/-! ## The executor -/

/-- A resolved path, by its parts. -/
abbrev PyPath : Type := List PyText

/-- Built-in functions: `repr`, `str` of a value, `(root / relative).resolve()`, and the SHA-256 hex digest of bytes. -/
structure FileLibrary extends ReprLibrary where
  str : PyValue → Except PyException PyText
  resolve : PyPath → PyText → Except PyException PyPath
  digest : Bytes → String

/-- What the file system does in one call: whether the target exists, its bytes before, the directory that is made,
the temporary file that is written and synced, its renaming, and the bytes of the target after it. -/
structure FileEnv where
  present : Except PyException Bool
  current : Except PyException Bytes
  mkdir : Except PyException Unit
  write : Except PyException Unit
  replace : Except PyException Unit
  observed : Except PyException Bytes

/-- `_results`: fingerprint and result by idempotency key. -/
abbrev LocalResults : Type := AList fun _ : String => String × ExecutionResult

/-- How one call went: what it returned or raised, and the results kept. -/
structure LocalOutcome where
  returned : Except PyException ExecutionResult
  results : LocalResults

/-- `LocalFileExecutor`, by its resolved root. -/
structure LocalFileExecutor where
  root : PyPath

section Executor

variable (py : Platform) (lib : FileLibrary) (ex : LocalFileExecutor)

/-- `_resolve`. -/
def LocalFileExecutor.resolve (relative : PyText) : Except PyException PyPath := do
  let candidate ← lib.resolve ex.root relative
  if candidate ≠ ex.root ∧ ex.root.isPrefixOf candidate = false then .error (.valueError "path escapes executor root")
  else if candidate = ex.root then .error (.valueError "target must be a file below executor root")
  else .ok candidate

/-- `str(target.relative_to(self.root))`. -/
def LocalFileExecutor.relativeTo (target : PyPath) : PyText :=
  match target.drop ex.root.length with
  | [] => "."
  | part :: parts => parts.foldl (fun path part => path ++ PyText.utf8 "/" ++ part) part

/-- `content.encode("utf-8")`. -/
def encodeText : PyText → Except PyException Bytes
  | .utf8 s => .ok (encodeUtf8 s.toList)
  | .lone _ _ => .error unicodeEncodeError

/-- The digest of the target, when `expected_sha256` is given and is another one. -/
def changedDigest (env : FileEnv) (request : ExecutionRequest) : Except PyException (Option String) :=
  match request.parameters.get? "expected_sha256" with
  | none | some .none => .ok none
  | some expected => do
    if ← env.present then
      let current := lib.digest (← env.current)
      if PyText.utf8 current ≠ (← lib.str expected) then .ok (some current) else .ok none
    else .ok none

/-- The `try` block: an answer that is not kept, or a result that is. -/
def LocalFileExecutor.replaceTextFile (env : FileEnv) (request : ExecutionRequest) :
    Except PyException (ExecutionResult ⊕ ExecutionResult) := do
  let target ← ex.resolve lib (← lib.str (← request.parameters.getItem "path"))
  let content ← lib.str (← request.parameters.getItem "content")
  match ← changedDigest lib env request with
  | some current => .ok (.inl ⟨.failed, [(.str "current_sha256", .text current)], none, some "precondition_failed"⟩)
  | none => do
    env.mkdir
    let encoded ← encodeText content
    env.write
    env.replace
    let observed ← env.observed
    let expected := lib.digest encoded
    let actual := lib.digest observed
    let readback : ReadbackEvidence := ⟨expected == actual, [(.str "path", .str (ex.relativeTo target)),
      (.str "sha256", .text actual), (.str "size", .int observed.length)],
      if expected = actual then none else some "readback_hash_mismatch"⟩
    .ok (.inr ⟨if readback.verified then .succeeded else .writeStatusUnknown,
      [(.str "expected_sha256", .text expected)], some readback, none⟩)

/-- `LocalFileExecutor.execute`. -/
def LocalFileExecutor.execute (env : FileEnv) (request : ExecutionRequest) (results : LocalResults) : LocalOutcome :=
  match localFingerprint py lib.toReprLibrary request with
  | .error e => ⟨.error e, results⟩
  | .ok fingerprint =>
    match results.lookup request.idempotencyKey with
    | some (known, result) =>
      ⟨.ok (if known ≠ fingerprint then ⟨.failed, [], none, some "idempotency_conflict"⟩ else result), results⟩
    | none =>
      if request.action ≠ "replace_text_file" then ⟨.ok ⟨.failed, [], none, some "unsupported_action"⟩, results⟩
      else match ex.replaceTextFile lib env request with
        | .ok (.inl early) => ⟨.ok early, results⟩
        | .ok (.inr result) => ⟨.ok result, results.insert request.idempotencyKey (fingerprint, result)⟩
        | .error e =>
          if e.isAny ["OSError", "KeyError", "TypeError", "ValueError"] then
            let result : ExecutionResult := ⟨.writeStatusUnknown, [], none, some e.describe⟩
            ⟨.ok result, results.insert request.idempotencyKey (fingerprint, result)⟩
          else ⟨.error e, results⟩

end Executor

end Rpr
