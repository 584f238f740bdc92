import Mathlib.Data.List.Induction
import PathwayRuntime.Model.Tenant
import PathwayRuntime.Trace.Frame

/-!
# Tenants do not reach each other's pathways

* `tenancy_sequential`: the shared runtime only sees calls made one after another.
* `Owners.kept`, `checkOwner_tenant`: an owner is never replaced, and an admitted call is made by it.
* **`tenant_isolation`**: every stored pathway is owned by the tenant whose `register` created it, and
  a call by another tenant is refused on it and leaves it alone.
-/

set_option autoImplicit false

namespace Rpr

open Resume

/-! ## The registry -/

section Registry

variable {py : Platform} {owners : Owners} {c : TenantCall} {p owner : String}

/-- The admitted tenant owns the pathway of its call. -/
theorem checkOwner_tenant (h : (c.checkOwner py owners).1 = .ok ()) :
    (c.checkOwner py owners).2.lookup c.method.base.pathwayId = some c.context.tenantId := by
  have hrequire : ∀ q, owners.require c.context q = .ok () →
      owners.lookup q = some c.context.tenantId := by
    intro q hq
    unfold Owners.require at hq
    cases hl : owners.lookup q with
    | none => simp only [hl] at hq; cases hq
    | some tenantId =>
      simp only [hl] at hq
      split_ifs at hq with hne
      rw [not_not.mp hne]
  unfold TenantCall.checkOwner at h ⊢
  cases hm : c.method with
  | register d key =>
    simp only [hm] at h ⊢
    split_ifs at h ⊢ with hdecl
    unfold Owners.claim at h ⊢
    cases hl : owners.lookup d.pathwayId with
    | none => exact AList.lookup_insert _
    | some tenantId =>
      simp only [hl] at h ⊢
      split_ifs at h ⊢ with hne
      show owners.lookup d.pathwayId = _
      rw [hl, not_not.mp hne]
  | transition q | execute q | evidence q =>
    simp only [hm] at h
    exact hrequire q h

/-- An owner is never replaced. -/
theorem Owners.kept (h : owners.lookup p = some owner) : (c.checkOwner py owners).2.lookup p = some owner := by
  unfold TenantCall.checkOwner
  split
  · split_ifs
    · exact h
    · rename_i d key hm hdecl
      unfold Owners.claim
      cases hl : owners.lookup d.pathwayId with
      | none =>
        have hne : p ≠ d.pathwayId := by
          rintro rfl
          rw [hl] at h
          cases h
        exact (AList.lookup_insert_ne hne).trans h
      | some tenantId =>
        dsimp only
        split_ifs <;> exact h
  · exact h

/-- A refused call is refused as a crossing of the tenant boundary. -/
theorem checkOwner_error {e : PyError} (h : (c.checkOwner py owners).1 = .error e) :
    ∃ message, e = .tenantBoundaryError message := by
  have hrequire : ∀ q, owners.require c.context q = .error e →
      ∃ message, e = .tenantBoundaryError message := by
    intro q hq
    unfold Owners.require at hq
    split at hq
    · exact ⟨_, (Except.error.inj hq).symm⟩
    · split_ifs at hq
      exact ⟨_, (Except.error.inj hq).symm⟩
  unfold TenantCall.checkOwner at h
  split at h
  · split_ifs at h
    · exact ⟨_, (Except.error.inj h).symm⟩
    · unfold Owners.claim at h
      split at h
      · split_ifs at h
        exact ⟨_, (Except.error.inj h).symm⟩
      · cases h
  · exact hrequire _ h

end Registry

/-! ## The shared runtime -/

section Run

variable (py : Platform) (policy : RedactionPolicy) (order : Option RowOrder)

/-- The call of the runtime that a call of a tenant becomes. -/
def TenantCall.call (c : TenantCall) : Call := ⟨policy, c.method.base⟩

theorem tenancy_append (calls : List (TenantCall × List Oracle)) (c : TenantCall) (os : List Oracle) :
    tenancy py policy order (calls ++ [(c, os)]) =
      (c.run py policy order os (tenancy py policy order calls)).2 := by
  simp [tenancy]

variable {py order}

/-- What a call leaves behind, refused or admitted. -/
theorem TenantCall.run_cases {s : Tenancy} {base : List (Call × List Oracle)}
    (hist : s.hist = sequential py order base) (next : s.next = base.length) (c : TenantCall)
    (os : List Oracle) :
    (∃ message, (c.run py policy order os s).1 = .raised (.tenantBoundaryError message) ∧
      (c.run py policy order os s).2.hist = s.hist ∧ (c.run py policy order os s).2.next = s.next) ∨
    ((c.checkOwner py s.owners).1 = .ok () ∧ (c.run py policy order os s).2.hist =
      sequential py order (base ++ [(c.call policy, os)]) ∧
      (c.run py policy order os s).2.next = base.length + 1) := by
  unfold TenantCall.run
  cases hcheck : c.checkOwner py s.owners with
  | mk answer owners =>
    cases answer with
    | error e =>
      obtain ⟨message, rfl⟩ := checkOwner_error (by rw [hcheck])
      exact .inl ⟨message, rfl, rfl, rfl⟩
    | ok u =>
      refine .inr ⟨rfl, ?_, by rw [← next]⟩
      rw [sequential_append, ← hist, ← next]
      rfl

theorem TenantCall.run_owners (c : TenantCall) (os : List Oracle) (s : Tenancy) :
    (c.run py policy order os s).2.owners = (c.checkOwner py s.owners).2 := by
  unfold TenantCall.run
  cases hcheck : c.checkOwner py s.owners with
  | mk answer owners => cases answer <;> rfl

variable (py order)

/-- The shared runtime only sees calls made one after another. -/
theorem tenancy_sequential (calls : List (TenantCall × List Oracle)) :
    ∃ base, (tenancy py policy order calls).hist = sequential py order base ∧
      (tenancy py policy order calls).next = base.length := by
  induction calls using List.reverseRecOn with
  | nil => exact ⟨[], rfl, rfl⟩
  | append_singleton calls call ih =>
    obtain ⟨base, hist, next⟩ := ih
    rw [tenancy_append]
    rcases TenantCall.run_cases policy hist next call.1 call.2 with
      ⟨message, -, hist', next'⟩ | ⟨-, hist', next'⟩
    · exact ⟨base, hist'.trans hist, next'.trans next⟩
    · exact ⟨base ++ [(call.1.call policy, call.2)], hist', by rw [next', List.length_append]; rfl⟩

end Run

/-! ## Isolation -/

/-- A pathway is only created by a registration. -/
theorem created_by_register {py : Platform} {order : Option RowOrder}
    {calls : List (Call × List Oracle)} {c : Call} {os : List Oracle} {p : String}
    (hc : ∀ d key, c.method ≠ .register d key) (hp : (sequential py order calls).world.state p = none) :
    (sequential py order (calls ++ [(c, os)])).world.state p = none := by
  refine Running.induct (motive := fun w => w.state p = none) hp fun tr w s h hnone hj ha => ?_
  cases pathway_cases hj ha p with
  | created hd hreg =>
    obtain ⟨key, _, _, _, _, hm, -⟩ := hreg
    exact absurd hm (hc _ _)
  | committed _ hcur => exact absurd (hcur.symm.trans hnone) (by simp)
  | appended => exact hnone
  | untouched hstate => exact hstate.trans hnone

section Isolation

variable (py : Platform) (policy : RedactionPolicy)

/-- The call created the pathway: it was not stored before the call and is stored after it. -/
def CreatedBy (calls : List (TenantCall × List Oracle)) (p : String) (c : TenantCall) : Prop :=
  ∃ before os after, calls = before ++ (c, os) :: after ∧
    (tenancy py policy (some .attemptIdFirst) before).hist.world.state p = none ∧
    ((tenancy py policy (some .attemptIdFirst) (before ++ [(c, os)])).hist.world.state p).isSome

variable {py policy} {calls : List (TenantCall × List Oracle)} {p : String} {c : TenantCall}
  {os : List Oracle}

/-- The call that creates a pathway is its registration, by the tenant that owns it from then on. -/
theorem creation (hbefore : (tenancy py policy (some .attemptIdFirst) calls).hist.world.state p = none)
    (hafter : ((tenancy py policy (some .attemptIdFirst) (calls ++ [(c, os)])).hist.world.state p).isSome) :
    (∃ d key, c.method = .register d key ∧ d.pathwayId = p) ∧
      (tenancy py policy (some .attemptIdFirst) (calls ++ [(c, os)])).owners.lookup p =
        some c.context.tenantId := by
  obtain ⟨base, hist, next⟩ :=
    tenancy_sequential py policy (some .attemptIdFirst) calls
  rw [tenancy_append] at hafter ⊢
  rw [TenantCall.run_owners]
  rcases TenantCall.run_cases policy hist next c os with
    ⟨message, -, hist', -⟩ | ⟨hcheck, hist', -⟩
  · rw [hist', hbefore] at hafter
    cases hafter
  · rw [hist] at hbefore
    rw [hist'] at hafter
    have hp : (c.call policy).method.pathwayId = p := by
      by_contra hne
      rw [(frame_call py base hne os).state, hbefore] at hafter
      cases hafter
    have howner := checkOwner_tenant hcheck
    rw [show c.method.base.pathwayId = p from hp] at howner
    refine ⟨?_, howner⟩
    cases hm : c.method with
    | register d key => exact ⟨d, key, rfl, by rw [← hp, TenantCall.call, hm]; rfl⟩
    | transition | execute | evidence =>
      rw [created_by_register (by simp [TenantCall.call, hm, TenantMethod.base]) hbefore] at hafter
      cases hafter

/-- A stored pathway was created by some call. -/
theorem exists_createdBy
    (h : ((tenancy py policy (some .attemptIdFirst) calls).hist.world.state p).isSome) :
    ∃ c, CreatedBy py policy calls p c := by
  induction calls using List.reverseRecOn with
  | nil => cases h
  | append_singleton calls call ih =>
    cases hbefore : (tenancy py policy (some .attemptIdFirst) calls).hist.world.state p with
    | none => exact ⟨call.1, calls, call.2, [], rfl, hbefore, h⟩
    | some s =>
      obtain ⟨c, before, os, after, rfl, hnone, hsome⟩ := ih (by rw [hbefore]; rfl)
      exact ⟨c, before, os, after ++ [call], by simp, hnone, hsome⟩

/-- The tenant of the call that created a pathway owns it for good. -/
theorem CreatedBy.owner (h : CreatedBy py policy calls p c) :
    (tenancy py policy (some .attemptIdFirst) calls).owners.lookup p = some c.context.tenantId := by
  obtain ⟨before, os, after, rfl, hnone, hsome⟩ := h
  induction after using List.reverseRecOn with
  | nil => exact (creation hnone hsome).2
  | append_singleton after call ih =>
    rw [show before ++ (c, os) :: (after ++ [call]) = (before ++ (c, os) :: after) ++ [call] by simp,
      tenancy_append, TenantCall.run_owners]
    exact Owners.kept ih

/-- **Tenants are isolated**, in every run of calls made one after another, with crashes: every stored
pathway was created by a call of `register`, and its owner is the tenant of that call; a call on it by
another tenant raises `TenantBoundaryError`, and whatever another tenant calls, the pathway keeps its
state, its log and its rows of the ledger. -/
theorem tenant_isolation (py : Platform) (policy : RedactionPolicy)
    (calls : List (TenantCall × List Oracle)) (p : String)
    (h : ((tenancy py policy (some .attemptIdFirst) calls).hist.world.state p).isSome) :
    (∃ c, CreatedBy py policy calls p c) ∧
    ∀ c, CreatedBy py policy calls p c → (∃ d key, c.method = .register d key ∧ d.pathwayId = p) ∧
      (tenancy py policy (some .attemptIdFirst) calls).owners.lookup p = some c.context.tenantId ∧
      ∀ (other : TenantCall) os, other.context.tenantId ≠ c.context.tenantId →
        (other.method.base.pathwayId = p → ∃ message, (other.run py policy (some .attemptIdFirst) os
          (tenancy py policy (some .attemptIdFirst) calls)).1 = .raised (.tenantBoundaryError message)) ∧
        SamePathway p (tenancy py policy (some .attemptIdFirst) calls).hist.world
          (tenancy py policy (some .attemptIdFirst) (calls ++ [(other, os)])).hist.world := by
  refine ⟨exists_createdBy h, fun c hc => ?_⟩
  have howner := hc.owner
  obtain ⟨before, os, after, rfl, hnone, hsome⟩ := hc
  refine ⟨(creation hnone hsome).1, howner, fun other os' hother => ?_⟩
  obtain ⟨base, hist, next⟩ := tenancy_sequential py policy
    (some .attemptIdFirst) (before ++ (c, os) :: after)
  -- Only the owner of a pathway is admitted to it.
  have hrefused : (other.checkOwner py (tenancy py policy (some .attemptIdFirst)
      (before ++ (c, os) :: after)).owners).1 = .ok () → other.method.base.pathwayId ≠ p := by
    rintro hcheck rfl
    have := (checkOwner_tenant hcheck).symm.trans (Owners.kept howner)
    exact hother (Option.some.inj this)
  rw [tenancy_append]
  rcases TenantCall.run_cases policy hist next other os' with
    ⟨message, hraised, hist', -⟩ | ⟨hcheck, hist', -⟩
  · exact ⟨fun _ => ⟨message, hraised⟩, by rw [hist']; exact .refl p _⟩
  · refine ⟨fun hp => absurd hp (hrefused hcheck), ?_⟩
    rw [hist', hist]
    exact frame_call py base (hrefused hcheck) os'

end Isolation

/-- Two tenants; the second one tries the pathway of the first under the same keys. -/
def tenantA : TenantContext := ⟨"tenant-a", by decide⟩

def tenantB : TenantContext := ⟨"tenant-b", by decide⟩

def crossing : List (TenantCall × List Oracle) :=
  [(⟨tenantA, .register (.sample none) "reg"⟩, List.replicate 40 {}),
    (⟨tenantA, .execute "p" requestA "executor"⟩, List.replicate 40 {}),
    (⟨tenantB, .register (.sample none) "reg"⟩, List.replicate 40 {})]

theorem tenant_isolation_crossing : ∃ c, CreatedBy .sample .default crossing "p" c ∧
    ∀ (other : TenantCall) os, other.context.tenantId ≠ c.context.tenantId →
      SamePathway "p" (tenancy .sample .default (some .attemptIdFirst) crossing).hist.world
        (tenancy .sample .default (some .attemptIdFirst) (crossing ++ [(other, os)])).hist.world := by
  have hstored : ((tenancy .sample .default (some .attemptIdFirst) crossing).hist.world.state "p").isSome := by
    decide +kernel
  obtain ⟨⟨c, hc⟩, hall⟩ := tenant_isolation .sample .default crossing "p" hstored
  exact ⟨c, hc, fun other os hother => ((hall c hc).2.2 other os hother).2⟩

end Rpr
