import PathwayRuntime.Epistemic.Independent
import PathwayRuntime.Ledger.Fingerprint
import PathwayRuntime.Python.Equality
import PathwayRuntime.Store.Definition

/-!
# Bundles of claims

* `buildClaimBundle`: the claims in the order of their ids, and the digest of their canonical text.
* `EpistemicClaim.asdict_injective`: a claim is determined by its members, in any order.
* **`bundle_identifies`**: bundles with one digest hold the same claims, and the order they are given in does not show.
-/

set_option autoImplicit false

namespace Rpr

open Json

/-! ## The bundle -/

def ClaimClass.value : ClaimClass → String
  | .creative => "creative"
  | .inference => "inference"
  | .factual => "factual"
  | .statisticOrQuotation => "statistic_or_quotation"
  | .highImpact => "high_impact"

def VerificationState.value : VerificationState → String
  | .proposed => "proposed"
  | .sourceAttached => "source_attached"
  | .sourceRetrieved => "source_retrieved"
  | .sourceSupportsClaim => "source_supports_claim"
  | .conflictingEvidence => "conflicting_evidence"
  | .unverified => "unverified"
  | .humanReviewed => "human_reviewed"
  | .approvedForUse => "approved_for_use"

/-- A text or `None`. -/
def Json.ofText? : Option PyText → Json
  | none => .null
  | some s => .str s

/-- A truth value or `None`. -/
def Json.ofBool? : Option Bool → Json
  | none => .null
  | some b => .bool b

/-- `asdict(item)`. -/
def ClaimEvidence.asdict (e : ClaimEvidence) : Json :=
  .obj [("evidence_id", .str e.evidenceId), ("artifact_sha256", .str e.artifactSha256),
    ("source_locator", .str e.sourceLocator), ("verifier", .str e.verifier), ("independent", .bool e.independent),
    ("supports_claim", .ofBool? e.supportsClaim)]

/-- `asdict(claim)`. -/
def EpistemicClaim.asdict (c : EpistemicClaim) : Json :=
  .obj [("claim_id", .str c.claimId), ("text", .str c.text), ("claim_class", .text c.claimClass.value),
    ("verification_state", .text c.verificationState.value), ("evidence", .arr (c.evidence.map ClaimEvidence.asdict)),
    ("assumptions", .arr (c.assumptions.map .str)), ("conflict_notes", .arr (c.conflictNotes.map .str)),
    ("review_owner", .ofText? c.reviewOwner), ("approval_authority", .ofText? c.approvalAuthority),
    ("residual_owner", .ofText? c.residualOwner)]

structure ClaimBundle where
  formatVersion : ℤ
  claims : List Json
  bundleSha256 : String

/-- `sorted(claims, key=lambda item: item.claim_id)`. -/
def sortedClaims (claims : List EpistemicClaim) : List EpistemicClaim :=
  claims.insertionSort fun c c' => c.claimId.le c'.claimId = true

/-- The loop over the claims; `identifiers` are those that were seen. -/
def checkClaims (lower : PyText → PyText) : List EpistemicClaim → List PyText → Except PyException Unit
  | [], _ => .ok ()
  | claim :: claims, identifiers => do
    claim.validate lower
    require (identifiers.contains claim.claimId) "duplicate claim id"
    checkClaims lower claims (claim.claimId :: identifiers)

/-- `build_claim_bundle`. -/
def buildClaimBundle (py : Platform) (lower : PyText → PyText) (claims : List EpistemicClaim) :
    Except PyException ClaimBundle := do
  checkClaims lower (sortedClaims claims) []
  let values := (sortedClaims claims).map EpistemicClaim.asdict
  match (Json.arr values).canonical with
  | some canonical => .ok ⟨1, values, py.sha256 canonical⟩
  | none => .error unicodeEncodeError

/-! ## What a claim is determined by -/

theorem sortItems_eq_map (items : List Json) : sortItems items = items.map sortKeys := by
  induction items with
  | nil => rfl
  | cons j items ih => rw [sortItems, ih, List.map_cons]

theorem ClaimClass.value_injective : Function.Injective ClaimClass.value := by
  intro c c' h
  cases c <;> cases c' <;> first | rfl | simp [ClaimClass.value] at h

theorem VerificationState.value_injective : Function.Injective VerificationState.value := by
  intro s s' h
  cases s <;> cases s' <;> first | rfl | simp [VerificationState.value] at h

theorem ofText?_injective : Function.Injective Json.ofText? := by
  intro s s' h
  cases s <;> cases s' <;> cases h <;> rfl

theorem sortKeys_ofText? (s : Option PyText) : (Json.ofText? s).sortKeys = Json.ofText? s := by
  cases s <;> rfl

theorem sortKeys_ofBool? (b : Option Bool) : (Json.ofBool? b).sortKeys = Json.ofBool? b := by
  cases b <;> rfl

theorem str_sortKeys_injective : Function.Injective (sortKeys ∘ Json.str) := by
  intro s s' h
  exact Json.str.inj h

theorem ofBool?_injective : Function.Injective Json.ofBool? := by
  intro b b' h
  cases b <;> cases b' <;> cases h <;> rfl

theorem ClaimEvidence.asdict_uniqueKeys (e : ClaimEvidence) : e.asdict.UniqueKeys := by
  refine ⟨by simp, ?_⟩
  cases hsupports : e.supportsClaim <;> simp [UniqueFields, UniqueKeys, Json.ofBool?]

/-- An item of evidence is determined by its members. -/
theorem ClaimEvidence.asdict_injective : Function.Injective fun e : ClaimEvidence => e.asdict.sortKeys := by
  intro e e' h
  have hget := map_get?_of_sortKeys e.asdict_uniqueKeys e'.asdict_uniqueKeys h
  obtain ⟨id, sha, locator, verifier, independent, supports⟩ := e
  obtain ⟨id', sha', locator', verifier', independent', supports'⟩ := e'
  have hid : some (Json.str id) = some (Json.str id') := hget "evidence_id"
  have hsha : some (Json.str sha) = some (Json.str sha') := hget "artifact_sha256"
  have hlocator : some (Json.str locator) = some (Json.str locator') := hget "source_locator"
  have hverifier : some (Json.str verifier) = some (Json.str verifier') := hget "verifier"
  have hindependent : some (Json.bool independent) = some (Json.bool independent') := hget "independent"
  have hsupports : some (Json.ofBool? supports).sortKeys = some (Json.ofBool? supports').sortKeys :=
    hget "supports_claim"
  simp only [Option.some.injEq, Json.str.injEq, Json.bool.injEq, sortKeys_ofBool?] at *
  rw [hid, hsha, hlocator, hverifier, hindependent, ofBool?_injective hsupports]

theorem EpistemicClaim.asdict_uniqueKeys (c : EpistemicClaim) : c.asdict.UniqueKeys := by
  have htexts : ∀ texts : List PyText, (Json.arr (texts.map .str)).UniqueKeys := by
    refine fun texts => uniqueItems_iff.mpr fun j hj => ?_
    obtain ⟨text, -, rfl⟩ := List.mem_map.mp hj
    trivial
  have hevidence : (Json.arr (c.evidence.map ClaimEvidence.asdict)).UniqueKeys := by
    refine uniqueItems_iff.mpr fun j hj => ?_
    obtain ⟨e, -, rfl⟩ := List.mem_map.mp hj
    exact e.asdict_uniqueKeys
  have howner : ∀ owner : Option PyText, (Json.ofText? owner).UniqueKeys := fun owner => by cases owner <;> trivial
  exact ⟨by simp, trivial, trivial, trivial, trivial, hevidence, htexts _, htexts _, howner _, howner _, howner _,
    trivial⟩

/-- A claim is determined by its members. -/
theorem EpistemicClaim.asdict_injective : Function.Injective fun c : EpistemicClaim => c.asdict.sortKeys := by
  intro c c' h
  have hget := map_get?_of_sortKeys c.asdict_uniqueKeys c'.asdict_uniqueKeys h
  obtain ⟨id, text, cls, state, evidence, assumptions, notes, review, approval, residual⟩ := c
  obtain ⟨id', text', cls', state', evidence', assumptions', notes', review', approval', residual'⟩ := c'
  have hid : some (Json.str id) = some (Json.str id') := hget "claim_id"
  have htext : some (Json.str text) = some (Json.str text') := hget "text"
  have hcls : some (Json.text cls.value) = some (Json.text cls'.value) := hget "claim_class"
  have hstate : some (Json.text state.value) = some (Json.text state'.value) := hget "verification_state"
  have hevidence : some (Json.arr (sortItems (evidence.map ClaimEvidence.asdict))) =
    some (Json.arr (sortItems (evidence'.map ClaimEvidence.asdict))) := hget "evidence"
  have hassumptions : some (Json.arr (sortItems (assumptions.map .str))) =
    some (Json.arr (sortItems (assumptions'.map .str))) := hget "assumptions"
  have hnotes : some (Json.arr (sortItems (notes.map .str))) = some (Json.arr (sortItems (notes'.map .str))) :=
    hget "conflict_notes"
  have hreview : some (Json.ofText? review).sortKeys = some (Json.ofText? review').sortKeys := hget "review_owner"
  have happroval : some (Json.ofText? approval).sortKeys = some (Json.ofText? approval').sortKeys :=
    hget "approval_authority"
  have hresidual : some (Json.ofText? residual).sortKeys = some (Json.ofText? residual').sortKeys :=
    hget "residual_owner"
  simp only [Option.some.injEq, Json.str.injEq, Json.arr.injEq, Json.text, PyText.utf8.injEq, sortItems_eq_map,
    List.map_map, sortKeys_ofText?] at *
  obtain rfl := ClaimClass.value_injective hcls
  obtain rfl := VerificationState.value_injective hstate
  obtain rfl := List.map_injective_iff.mpr ClaimEvidence.asdict_injective hevidence
  obtain rfl := List.map_injective_iff.mpr str_sortKeys_injective hassumptions
  obtain rfl := List.map_injective_iff.mpr str_sortKeys_injective hnotes
  rw [hid, htext, ofText?_injective hreview, ofText?_injective happroval, ofText?_injective hresidual]

/-! ## Bundles -/

instance : Std.Total fun c c' : EpistemicClaim => c.claimId.le c'.claimId = true :=
  ⟨fun c c' => by simpa only [PyText.le_iff] using le_total c.claimId.codes c'.claimId.codes⟩

instance : IsTrans EpistemicClaim fun c c' => c.claimId.le c'.claimId = true :=
  ⟨fun _ _ _ h h' => (PyText.le_iff _ _).mpr (le_trans ((PyText.le_iff _ _).mp h) ((PyText.le_iff _ _).mp h'))⟩

theorem sortedClaims_perm (claims : List EpistemicClaim) : (sortedClaims claims).Perm claims :=
  List.perm_insertionSort _ claims

/-- The order of claims with different ids does not show. -/
theorem sortedClaims_congr {claims claims' : List EpistemicClaim} (hperm : claims.Perm claims')
    (hnd : (claims.map EpistemicClaim.claimId).Nodup) : sortedClaims claims = sortedClaims claims' := by
  have hsorted : ∀ cs : List EpistemicClaim,
      (sortedClaims cs).Pairwise fun c c' => c.claimId.le c'.claimId = true :=
    fun cs => List.pairwise_insertionSort _ cs
  refine List.Perm.eq_of_pairwise (fun c c' hc hc' hle hle' => ?_) (hsorted claims) (hsorted claims')
    (((sortedClaims_perm claims).trans hperm).trans (sortedClaims_perm claims').symm)
  have hmem : c ∈ claims := (sortedClaims_perm claims).mem_iff.mp hc
  have hmem' : c' ∈ claims := hperm.mem_iff.mpr ((sortedClaims_perm claims').mem_iff.mp hc')
  refine List.inj_on_of_nodup_map hnd hmem hmem' (PyText.codes_injective (le_antisymm ?_ ?_))
  · exact (PyText.le_iff _ _).mp hle
  · exact (PyText.le_iff _ _).mp hle'

section Bundle

variable {py : Platform} {lower : PyText → PyText}

/-- Claims that pass have different ids. -/
theorem checkClaims_nodup {claims : List EpistemicClaim} {identifiers : List PyText}
    (h : checkClaims lower claims identifiers = .ok ()) :
    (claims.map EpistemicClaim.claimId).Nodup ∧ ∀ c ∈ claims, c.claimId ∉ identifiers := by
  induction claims generalizing identifiers with
  | nil => exact ⟨List.nodup_nil, fun c hc => (List.not_mem_nil hc).elim⟩
  | cons claim claims ih =>
    rw [checkClaims] at h
    obtain ⟨_, -, h⟩ := except_bind_eq_ok.mp h
    obtain ⟨_, hrequired, h⟩ := except_bind_eq_ok.mp h
    obtain ⟨hnd, hrest⟩ := ih h
    have hnew : claim.claimId ∉ identifiers := by
      intro hmem
      rw [require, if_pos (List.contains_iff_mem.mpr hmem)] at hrequired
      cases hrequired
    refine ⟨List.nodup_cons.mpr ⟨fun hmem => ?_, hnd⟩, List.forall_mem_cons.mpr ⟨hnew, fun c hc hmem => ?_⟩⟩
    · obtain ⟨c, hc, hid⟩ := List.mem_map.mp hmem
      exact hrest c hc (hid ▸ List.mem_cons_self)
    · exact hrest c hc (List.mem_cons_of_mem _ hmem)

/-- What a bundle is made of. -/
theorem buildClaimBundle_ok {claims : List EpistemicClaim} {b : ClaimBundle}
    (h : buildClaimBundle py lower claims = .ok b) : checkClaims lower (sortedClaims claims) [] = .ok () ∧
      ∃ canonical, (Json.arr ((sortedClaims claims).map EpistemicClaim.asdict)).canonical = some canonical ∧
        b.bundleSha256 = py.sha256 canonical := by
  obtain ⟨_, hcheck, h⟩ := except_bind_eq_ok.mp h
  refine ⟨hcheck, ?_⟩
  dsimp only at h
  cases hcanonical : (Json.arr ((sortedClaims claims).map EpistemicClaim.asdict)).canonical with
  | none =>
    rw [hcanonical] at h
    cases h
  | some canonical =>
    rw [hcanonical] at h
    exact ⟨canonical, rfl, (congrArg ClaimBundle.bundleSha256 (Except.ok.inj h)).symm⟩

theorem values_uniqueKeys (claims : List EpistemicClaim) :
    (Json.arr (claims.map EpistemicClaim.asdict)).UniqueKeys := by
  refine uniqueItems_iff.mpr fun j hj => ?_
  obtain ⟨c, -, rfl⟩ := List.mem_map.mp hj
  exact c.asdict_uniqueKeys

/-- **A bundle identifies its claims.** Where a list of claims has a bundle, exactly the lists of the same claims, in
any order, have a bundle with this digest. -/
theorem bundle_identifies (hsha : Function.Injective py.sha256) {claims : List EpistemicClaim} {b : ClaimBundle}
    (h : buildClaimBundle py lower claims = .ok b) (claims' : List EpistemicClaim) :
    claims.Perm claims' ↔ ∃ b', buildClaimBundle py lower claims' = .ok b' ∧ b'.bundleSha256 = b.bundleSha256 := by
  obtain ⟨hcheck, canonical, hcanonical, hdigest⟩ := buildClaimBundle_ok h
  have hnd : (claims.map EpistemicClaim.claimId).Nodup :=
    ((sortedClaims_perm claims).map EpistemicClaim.claimId).nodup_iff.mp (checkClaims_nodup hcheck).1
  constructor
  · intro hperm
    refine ⟨b, ?_, rfl⟩
    rw [← h, buildClaimBundle, buildClaimBundle, sortedClaims_congr hperm hnd]
  · rintro ⟨b', h', hsame⟩
    obtain ⟨-, canonical', hcanonical', hdigest'⟩ := buildClaimBundle_ok h'
    have htext : canonical' = canonical := hsha (by rw [← hdigest', hsame, hdigest])
    subst htext
    have hsort := canonical_inj hcanonical hcanonical' (values_uniqueKeys _) (values_uniqueKeys _)
    have hvalues : sortItems ((sortedClaims claims).map EpistemicClaim.asdict) =
        sortItems ((sortedClaims claims').map EpistemicClaim.asdict) := Json.arr.inj hsort
    rw [sortItems_eq_map, sortItems_eq_map, List.map_map, List.map_map] at hvalues
    have hsorted := List.map_injective_iff.mpr EpistemicClaim.asdict_injective hvalues
    exact ((sortedClaims_perm claims).symm.trans (hsorted ▸ .refl _)).trans (sortedClaims_perm claims')

end Bundle

/-- An open question. -/
def EpistemicClaim.other : EpistemicClaim where
  claimId := "claim-0"
  text := "An open question"
  claimClass := .inference
  verificationState := .proposed

/-- The canonical text of a bundle of two claims, and its digest. -/
def bundledText : List Char :=
  "[\x7b\"approval_authority\":null,\"assumptions\":[],\"claim_class\":\"inference\",".toList ++
    "\"claim_id\":\"claim-0\",\"conflict_notes\":[],\"evidence\":[],\"residual_owner\":null,".toList ++
    "\"review_owner\":null,\"text\":\"An open question\",\"verification_state\":\"proposed\"\x7d,".toList ++
    "\x7b\"approval_authority\":null,\"assumptions\":[],\"claim_class\":\"creative\",".toList ++
    "\"claim_id\":\"claim-1\",\"conflict_notes\":[],\"evidence\":[],\"residual_owner\":null,".toList ++
    "\"review_owner\":null,\"text\":\"A fictional concept\",\"verification_state\":\"proposed\"\x7d]".toList

def bundledDigest : String := "506036d5a01e158f3079ecd519df7ec09b2f259514ea589e147d680108418998"

/-- The claims of the bundle, in both orders. -/
theorem bundle_identifies_two : ∃ b, buildClaimBundle (.withDigests [(bundledText, bundledDigest)]) id
      [.fiction, .other] = .ok b ∧ b.bundleSha256 = bundledDigest ∧
    ∃ b', buildClaimBundle (.withDigests [(bundledText, bundledDigest)]) id [.other, .fiction] = .ok b' ∧
      b'.bundleSha256 = b.bundleSha256 := by
  have hsha : Function.Injective (Platform.withDigests [(bundledText, bundledDigest)]).sha256 :=
    Platform.withDigests_injective (by simp) fun p hp => by
      rw [List.mem_singleton.mp hp]
      decide
  have hbuilt : ((buildClaimBundle (.withDigests [(bundledText, bundledDigest)]) id
      [.fiction, .other]).toOption.map ClaimBundle.bundleSha256) = some bundledDigest := by
    decide +kernel
  cases hb : buildClaimBundle (.withDigests [(bundledText, bundledDigest)]) id [.fiction, .other] with
  | error e =>
    rw [hb] at hbuilt
    cases hbuilt
  | ok b =>
    rw [hb] at hbuilt
    exact ⟨b, rfl, Option.some.inj hbuilt, (bundle_identifies hsha hb _).mp (.swap _ _ _)⟩

end Rpr
