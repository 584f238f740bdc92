import PathwayRuntime.Tenant.Isolation

/-!
# What a failed registration claims

A pathway is claimed in the registry before it is registered, and nothing releases it.

* `claim_owners`: a claim leaves the registry alone exactly when the pathway has an owner.
* **`failed_register_owners_iff`**: a registration that raises leaves the registry as it was exactly when the
  metadata names another tenant or the pathway had an owner.
-/

set_option autoImplicit false

namespace Rpr

open Resume

section Claim

variable {py : Platform} {policy : RedactionPolicy} {order : Option RowOrder} {owners : Owners}
  {context : TenantContext} {p : String}

/-- A claim leaves the registry alone exactly when the pathway has an owner. -/
theorem claim_owners : (owners.claim context p).2 = owners ↔ (owners.lookup p).isSome := by
  rw [Owners.claim]
  cases hl : owners.lookup p with
  | some tenantId =>
    refine iff_of_true ?_ rfl
    dsimp only
    split_ifs <;> rfl
  | none =>
    refine iff_of_false (fun h => ?_) nofun
    have hself : (owners.insert p context.tenantId).lookup p = owners.lookup p := congrArg (AList.lookup p) h
    rw [AList.lookup_insert, hl] at hself
    cases hself

/-- The metadata of the definition names another tenant. -/
def PathwayDefinition.NamesOther (py : Platform) (d : PathwayDefinition) (context : TenantContext) : Prop :=
  d.declaredTenant py ≠ "" ∧ d.declaredTenant py ≠ context.tenantId

instance (d : PathwayDefinition) : Decidable (d.NamesOther py context) := inferInstanceAs (Decidable (_ ∧ _))

/-- What a registration claims, however it ends. -/
theorem register_owners_iff (d : PathwayDefinition) (key : String) (os : List Oracle) (s : Tenancy) :
    ((TenantCall.mk context (.register d key)).run py policy order os s).2.owners = s.owners ↔
      d.NamesOther py context ∨ (s.owners.lookup d.pathwayId).isSome := by
  rw [TenantCall.run_owners]
  have hcheck : (TenantCall.mk context (.register d key)).checkOwner py s.owners =
      if d.NamesOther py context then
        (.error (.tenantBoundaryError "definition tenant metadata does not match tenant context"), s.owners)
      else s.owners.claim context d.pathwayId := rfl
  by_cases hother : d.NamesOther py context
  · rw [if_pos hother] at hcheck
    rw [hcheck]
    exact iff_of_true rfl (.inl hother)
  rw [if_neg hother] at hcheck
  rw [hcheck, claim_owners, or_iff_right hother]

/-- **What a failed registration claims**: whatever the registry and the store hold, a registration that raises
leaves the registry as it was exactly when the metadata names another tenant or the pathway had an owner. -/
theorem failed_register_owners_iff {d : PathwayDefinition} {key : String} {os : List Oracle} {s : Tenancy}
    (_hraised : ∃ e, ((TenantCall.mk context (.register d key)).run py policy order os s).1 = .raised e) :
    ((TenantCall.mk context (.register d key)).run py policy order os s).2.owners = s.owners ↔
      d.NamesOther py context ∨ (s.owners.lookup d.pathwayId).isSome :=
  register_owners_iff d key os s

end Claim

/-! ## A blank key -/

/-- A registration under a blank key. -/
def blankRegistration : TenantCall := ⟨tenantA, .register (.sample none) ""⟩

theorem failed_register_owners_iff_blank :
    (blankRegistration.run .sample .default none (List.replicate 40 {}) .start).2.owners = ∅ ↔
      (PathwayDefinition.sample none).NamesOther .sample tenantA ∨
        ((∅ : Owners).lookup "p").isSome :=
  failed_register_owners_iff (d := .sample none) ⟨.valueError "idempotency_key is required", rfl⟩

/-- **A failed registration claims a pathway**: the key is blank, nothing is stored, and the tenant owns the
pathway. -/
theorem failed_register_claims :
    (blankRegistration.run .sample .default none (List.replicate 40 {}) .start).1 =
        .raised (.valueError "idempotency_key is required") ∧
      (blankRegistration.run .sample .default none (List.replicate 40 {}) .start).2.hist.world.state "p" = none ∧
      Tenancy.start.owners.lookup "p" = none ∧
      (blankRegistration.run .sample .default none (List.replicate 40 {}) .start).2.owners.lookup "p" =
        some tenantA.tenantId :=
  ⟨rfl, rfl, rfl, rfl⟩

end Rpr
