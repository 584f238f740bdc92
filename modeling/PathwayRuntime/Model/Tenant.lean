import PathwayRuntime.Model.System

/-!
# `TenantScopedRuntime`

One shared runtime behind a registry of owners.

* `Owners.claim`, `Owners.require`: the registry.
* `TenantCall.run`: a call of a tenant; the runtime is only called once the registry admits it.
* `tenancy`: what calls made one after another leave behind.
-/

set_option autoImplicit false

namespace Rpr

open Resume

structure TenantContext where
  tenantId : String
  tenantId_required : isBlank tenantId = false

/-- `tenant_pathways`: the tenant that owns each pathway. -/
abbrev Owners : Type := AList fun _ : String => String

def Owners.claim (owners : Owners) (context : TenantContext) (pathwayId : String) :
    Except PyError Unit × Owners :=
  match owners.lookup pathwayId with
  | some tenantId =>
    if tenantId ≠ context.tenantId then
      (.error (.tenantBoundaryError "pathway is already owned by another tenant"), owners)
    else (.ok (), owners)
  | none => (.ok (), owners.insert pathwayId context.tenantId)

def Owners.require (owners : Owners) (context : TenantContext) (pathwayId : String) :
    Except PyError Unit :=
  match owners.lookup pathwayId with
  | none => .error (.tenantBoundaryError "pathway has no registered tenant owner")
  | some tenantId =>
    if tenantId ≠ context.tenantId then
      .error (.tenantBoundaryError "tenant does not own pathway")
    else .ok ()

/-- The methods of `TenantScopedRuntime`. -/
inductive TenantMethod : Type
  | register (definition : PathwayDefinition) (key : String)
  | transition (pathwayId : String) (target : PathwayState) (actor : String) (reason : PyText)
  | execute (pathwayId : String) (request : ExecutionRequest) (actor : String)
  | evidence (pathwayId : String)

/-- The method of the shared runtime. -/
def TenantMethod.base : TenantMethod → Method
  | register d key => .register d key
  | transition p target actor reason => .transition p target actor reason
  | execute p request actor => .execute p request actor
  | evidence p => .evidence p

/-- `str(definition.metadata.get("tenant_id", "")).strip()`. -/
def PathwayDefinition.declaredTenant (py : Platform) (d : PathwayDefinition) : String :=
  match (Json.obj d.metadata).get? "tenant_id" with
  | none => strip ""
  | some value => strip (py.str value)

structure TenantCall where
  context : TenantContext
  method : TenantMethod

/-- What the registry answers before the runtime is called. -/
def TenantCall.checkOwner (py : Platform) (c : TenantCall) (owners : Owners) : Except PyError Unit × Owners :=
  match c.method with
  | .register d _ =>
    if d.declaredTenant py ≠ "" ∧ d.declaredTenant py ≠ c.context.tenantId then
      (.error (.tenantBoundaryError "definition tenant metadata does not match tenant context"), owners)
    else owners.claim c.context d.pathwayId
  | m => (owners.require c.context m.base.pathwayId, owners)

/-- The registry, and the history of the shared runtime with the number of its calls. -/
structure Tenancy where
  owners : Owners
  next : ℕ
  hist : History

def Tenancy.start : Tenancy := ⟨∅, 0, History.start⟩

section Run

variable (py : Platform) (policy : RedactionPolicy) (order : Option RowOrder)

/-- A call of a tenant. It crashes in the runtime when the environment's list ends. -/
def TenantCall.run (c : TenantCall) (os : List Oracle) (s : Tenancy) :
    Outcome PyError CallResult × Tenancy :=
  match c.checkOwner py s.owners with
  | (.error e, owners) => (.raised e, { s with owners })
  | (.ok (), owners) =>
    let call : Call := ⟨policy, c.method.base⟩
    let r := (database py order).run s.next call (call.body py) os s.hist
    (r.1, ⟨owners, s.next + 1, r.2⟩)

/-- Calls of any tenants, made one after another on empty databases. -/
def tenancy (calls : List (TenantCall × List Oracle)) : Tenancy :=
  calls.foldl (fun s call => (call.1.run py policy order call.2 s).2) Tenancy.start

end Run

end Rpr
