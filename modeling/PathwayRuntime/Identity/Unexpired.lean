import Mathlib.Algebra.Order.Field.Rat
import PathwayRuntime.Model.Identity

/-!
# Accepted tokens are unexpired, unless a time is nan

* `Claimed`: the number a claim is coerced to.
* `VerifiedClaimsPrincipalResolver.Resolved`: the values of the checks a resolved token has passed.
* **`resolved_timely_iff`**: the times of a resolved token are numbers within their bounds, and its issuer and
  audience are those configured, exactly when no time is coerced to nan.
-/

set_option autoImplicit false

namespace Rpr

variable {K : Type} [Field K] [LinearOrder K] {lib : ClaimLibrary K} {claims : PyDict}

/-! ## One claim -/

/-- The claim is present and coerced to this; `None` is no claim, as it is where a claim is required. -/
def Claimed (lib : ClaimLibrary K) (claims : PyDict) (name : String) (x : Extended K) : Prop :=
  ∃ value, claimValue claims name = some value ∧ lib.float value = .ok x

omit [LinearOrder K] in
theorem Claimed.unique {name : String} {x y : Extended K} (hx : Claimed lib claims name x)
    (hy : Claimed lib claims name y) : x = y := by
  obtain ⟨value, hvalue, hx⟩ := hx
  obtain ⟨value', hvalue', hy⟩ := hy
  obtain rfl := Option.some.inj (hvalue.symm.trans hvalue')
  exact Except.ok.inj (hx.symm.trans hy)

omit [LinearOrder K] in
theorem numericClaim_ok {name : String} {required : Bool} {x : Option (Extended K)}
    (h : numericClaim lib claims name required = .ok x) :
    x = none ∧ claimValue claims name = none ∧ required = false ∨ ∃ y, x = some y ∧ Claimed lib claims name y := by
  unfold numericClaim at h
  cases hvalue : claimValue claims name with
  | none =>
    rw [hvalue] at h
    cases required with
    | true => exact (nomatch h)
    | false => exact .inl ⟨(Except.ok.inj h).symm, rfl, rfl⟩
  | some value =>
    rw [hvalue] at h
    dsimp only at h
    cases hx : lib.float value with
    | error e =>
      rw [hx] at h
      dsimp only at h
      split_ifs at h
    | ok y =>
      rw [hx] at h
      exact .inr ⟨y, (Except.ok.inj h).symm, value, hvalue, hx⟩

/-! ## A resolved token -/

theorem requirePrincipal_ok {failed : Bool} {message : String} {u : Unit} :
    requirePrincipal failed message = .ok u ↔ failed = false := by
  cases failed
  · exact iff_of_true rfl rfl
  · exact iff_of_false (fun h => nomatch h) (fun h => nomatch h)

namespace VerifiedClaimsPrincipalResolver

/-- The audience is the one expected, or a sequence with an item that is written so. -/
def AudienceMatches (resolver : VerifiedClaimsPrincipalResolver) (lib : ClaimLibrary K) (claims : PyDict) : Prop :=
  claims.get? "aud" = some (.str resolver.expectedAudience) ∨
    ∃ items, (claims.get? "aud" = some (.list items) ∨ claims.get? "aud" = some (.tuple items)) ∧
      ∃ item ∈ items, lib.str item = .ok resolver.expectedAudience

/-- The issuer, without its last slashes, is allowed. -/
def IssuerAllowed (resolver : VerifiedClaimsPrincipalResolver) (lib : ClaimLibrary K) (claims : PyDict) : Prop :=
  ∃ issuer, lib.str ((claims.get? "iss").getD (.text "")) = .ok issuer ∧
    issuer.rstripSlash ∈ resolver.allowedIssuers

omit [Field K] [LinearOrder K] in
theorem audienceMatches_true {resolver : VerifiedClaimsPrincipalResolver}
    (h : resolver.audienceMatches lib (claims.get? "aud") = .ok true) : resolver.AudienceMatches lib claims := by
  have hitems : ∀ items : List PyValue,
      (do .ok ((← items.mapM lib.str).contains resolver.expectedAudience) : Except PyException Bool) = .ok true →
      ∃ item ∈ items, lib.str item = .ok resolver.expectedAudience := by
    intro items h
    obtain ⟨texts, htexts, h⟩ := except_bind_eq_ok.mp h
    exact exists_left_of_forall₂ (forall₂_of_mapM_ok htexts) (List.contains_iff_mem.mp (Except.ok.inj h))
  unfold audienceMatches at h
  split at h
  · next s haud => rw [beq_iff_eq.mp (Except.ok.inj h)] at haud; exact .inl haud
  · next items haud => exact .inr ⟨items, .inl haud, hitems items h⟩
  · next items haud => exact .inr ⟨items, .inr haud, hitems items h⟩
  · exact absurd (Except.ok.inj h) (by decide)

/-- What a resolved token has passed: the comparisons that reject it have failed. -/
structure Resolved (resolver : VerifiedClaimsPrincipalResolver) (lib : ClaimLibrary K) (now : K) (claims : PyDict)
    (skew : K) : Prop where
  issuer : resolver.IssuerAllowed lib claims
  audience : resolver.AudienceMatches lib claims
  exp : ∃ x, Claimed lib claims "exp" x ∧ x.le (.finite (now - skew)) = false
  nbf : ∀ value, claimValue claims "nbf" = some value →
    ∃ x, lib.float value = .ok x ∧ (Extended.finite (now + skew)).lt x = false
  iat : ∀ value, claimValue claims "iat" = some value →
    ∃ x, lib.float value = .ok x ∧ (Extended.finite (now + skew)).lt x = false

omit [LinearOrder K] in
theorem numericClaim_any {name : String} {required : Bool} {x : Option (Extended K)} {p : Extended K → Bool}
    (h : numericClaim lib claims name required = .ok x) (hp : x.any p = false) :
    ∀ value, claimValue claims name = some value → ∃ y, lib.float value = .ok y ∧ p y = false := by
  intro value hvalue
  rcases numericClaim_ok h with ⟨-, hnone, -⟩ | ⟨y, rfl, value', hvalue', hy⟩
  · exact absurd (hnone.symm.trans hvalue) (by simp)
  · obtain rfl := Option.some.inj (hvalue.symm.trans hvalue')
    exact ⟨y, hy, hp⟩

theorem resolve_ok {resolver : VerifiedClaimsPrincipalResolver} {now : K} {method : PyText}
    {principal : TokenPrincipal} (h : resolver.resolve lib now (.verified claims method) = .ok principal) :
    ∃ skew : K, floatOfInt resolver.clockSkewSeconds = .ok skew ∧ resolver.Resolved lib now claims skew := by
  obtain ⟨issuer, hissuer, h⟩ := except_bind_eq_ok.mp h
  obtain ⟨subject, hsubject, h⟩ := except_bind_eq_ok.mp h
  obtain ⟨_, hallowed, h⟩ := except_bind_eq_ok.mp h
  obtain ⟨_, -, h⟩ := except_bind_eq_ok.mp h
  obtain ⟨matched, hmatched, h⟩ := except_bind_eq_ok.mp h
  obtain ⟨_, haudience, h⟩ := except_bind_eq_ok.mp h
  obtain ⟨skew, hskew, h⟩ := except_bind_eq_ok.mp h
  obtain ⟨exp, hexp, h⟩ := except_bind_eq_ok.mp h
  obtain ⟨nbf, hnbf, h⟩ := except_bind_eq_ok.mp h
  obtain ⟨iat, hiat, h⟩ := except_bind_eq_ok.mp h
  obtain ⟨_, hexpired, h⟩ := except_bind_eq_ok.mp h
  obtain ⟨_, hearly, h⟩ := except_bind_eq_ok.mp h
  obtain ⟨_, hfuture, -⟩ := except_bind_eq_ok.mp h
  rw [requirePrincipal_ok] at hallowed haudience hexpired hearly hfuture
  rw [Bool.not_eq_false'] at hallowed haudience
  refine ⟨skew, hskew, ⟨issuer, hissuer, List.contains_iff_mem.mp hallowed⟩,
    audienceMatches_true (haudience ▸ hmatched), ?_, numericClaim_any hnbf hearly, numericClaim_any hiat hfuture⟩
  rcases numericClaim_ok hexp with ⟨-, -, hrequired⟩ | ⟨x, rfl, hx⟩
  · exact absurd hrequired (by decide)
  · exact ⟨x, hx, hexpired⟩

/-- The times of the token are numbers within their bounds, and it is from the issuer and for the audience of the
configuration. -/
structure Timely (resolver : VerifiedClaimsPrincipalResolver) (lib : ClaimLibrary K) (now skew : K)
    (claims : PyDict) : Prop where
  exp : ∃ x, Claimed lib claims "exp" x ∧ (Extended.finite (now - skew)).lt x = true
  nbf : ∀ value, claimValue claims "nbf" = some value →
    ∃ x, lib.float value = .ok x ∧ x.le (.finite (now + skew)) = true
  iat : ∀ value, claimValue claims "iat" = some value →
    ∃ x, lib.float value = .ok x ∧ x.le (.finite (now + skew)) = true
  issuer : resolver.IssuerAllowed lib claims
  audience : resolver.AudienceMatches lib claims

end VerifiedClaimsPrincipalResolver

/-- No time of the token is coerced to nan. -/
def TimesAreNumbers (lib : ClaimLibrary K) (claims : PyDict) : Prop :=
  ∀ name ∈ ["exp", "nbf", "iat"], ¬ Claimed lib claims name .nan

/-- **Accepted tokens are unexpired exactly when no time is nan.** -/
theorem resolved_timely_iff {resolver : VerifiedClaimsPrincipalResolver} {now : K} {method : PyText}
    {principal : TokenPrincipal} (h : resolver.resolve lib now (.verified claims method) = .ok principal) :
    (∃ skew : K, floatOfInt resolver.clockSkewSeconds = .ok skew ∧ resolver.Timely lib now skew claims) ↔
      TimesAreNumbers lib claims := by
  obtain ⟨skew, hskew, hresolved⟩ := VerifiedClaimsPrincipalResolver.resolve_ok h
  constructor
  · rintro ⟨skew', -, htimely⟩ name hname hnan
    have hle : ∀ name, Claimed lib claims name .nan →
        ¬ ∀ value, claimValue claims name = some value →
          ∃ x, lib.float value = .ok x ∧ x.le (.finite (now + skew')) = true := by
      rintro name ⟨value, hvalue, hfloat⟩ h
      obtain ⟨x, hx, hle⟩ := h value hvalue
      obtain rfl := Except.ok.inj (hfloat.symm.trans hx)
      exact absurd hle (by simp)
    simp only [List.mem_cons, List.not_mem_nil, or_false] at hname
    rcases hname with rfl | rfl | rfl
    · obtain ⟨x, hx, hlt⟩ := htimely.exp
      rw [hx.unique hnan, Extended.lt_nan] at hlt
      exact absurd hlt (by decide)
    · exact hle _ hnan htimely.nbf
    · exact hle _ hnan htimely.iat
  · intro hnumbers
    have hle : ∀ name ∈ ["exp", "nbf", "iat"], ∀ value, claimValue claims name = some value →
        (∃ x, lib.float value = .ok x ∧ (Extended.finite (now + skew)).lt x = false) →
        ∃ x, lib.float value = .ok x ∧ x.le (.finite (now + skew)) = true := by
      rintro name hname value hvalue ⟨x, hx, hlt⟩
      rcases (Extended.lt_eq_false_iff _ _).mp hlt with hnan | rfl | hle
      · exact absurd hnan (Extended.finite_ne_nan _)
      · exact absurd ⟨value, hvalue, hx⟩ (hnumbers name hname)
      · exact ⟨x, hx, hle⟩
    refine ⟨skew, hskew, ?_, fun value hvalue => hle "nbf" (by simp) value hvalue (hresolved.nbf value hvalue),
      fun value hvalue => hle "iat" (by simp) value hvalue (hresolved.iat value hvalue), hresolved.issuer,
      hresolved.audience⟩
    obtain ⟨x, hx, hexp⟩ := hresolved.exp
    rcases (Extended.le_eq_false_iff _ _).mp hexp with rfl | hnan | hlt
    · exact absurd hx (hnumbers "exp" (by simp))
    · exact absurd hnan (Extended.finite_ne_nan _)
    · exact ⟨x, hx, hlt⟩

/-! ## Two tokens -/

/-- `str` and `float` as they are on these tokens. -/
def ClaimLibrary.sample : ClaimLibrary ℚ where
  str
    | .str s => .ok s
    | _ => .ok ""
  parse s := if s = "nan" then .ok .nan else .error (.valueError "could not convert string to float")
  ofObject _ _ := .error (.typeError "float() argument must be a string or a real number")

def VerifiedClaimsPrincipalResolver.sample : VerifiedClaimsPrincipalResolver where
  allowedIssuers := ["https://id.example.com"]
  expectedAudience := "rpr-api"
  clockSkewSeconds := 60
  issuers_nonempty := by decide
  audience_nonempty := by decide
  skew_nonneg := by decide

/-- The claims of a token of the audience, with these times. -/
def tokenClaims (times : PyDict) : PyDict :=
  [(.str "iss", .text "https://id.example.com"), (.str "sub", .text "alice"), (.str "aud", .text "rpr-api")] ++ times

/-- Issued ten seconds ago, valid since five, for five minutes. -/
def timedClaims : PyDict := tokenClaims [(.str "exp", .int 1300), (.str "nbf", .int 995), (.str "iat", .int 990)]

def tokenPrincipal : TokenPrincipal := ⟨"alice", "https://id.example.com", "oidc:jwks:RS256", []⟩

theorem resolve_timed : VerifiedClaimsPrincipalResolver.sample.resolve ClaimLibrary.sample (1000 : ℚ)
    (.verified timedClaims "oidc:jwks:RS256") = .ok tokenPrincipal := by decide +kernel

theorem resolve_nan : VerifiedClaimsPrincipalResolver.sample.resolve ClaimLibrary.sample (0 : ℚ)
    (.verified (tokenClaims [(.str "exp", .text "nan")]) "oidc:jwks:RS256") = .ok tokenPrincipal := by decide +kernel

theorem timed_numbers : TimesAreNumbers ClaimLibrary.sample timedClaims := by
  rintro name hname ⟨value, hvalue, hfloat⟩
  have hnumbers : ∀ name ∈ ["exp", "nbf", "iat"], ∀ value ∈ claimValue timedClaims name,
      (ClaimLibrary.sample.float value == .ok .nan) = false := by
    decide +kernel
  have h := hnumbers name hname value hvalue
  rw [hfloat] at h
  exact absurd h (by decide)

/-- It is resolved and used in time. -/
theorem resolved_timed :
    ∃ skew : ℚ, floatOfInt VerifiedClaimsPrincipalResolver.sample.clockSkewSeconds = .ok skew ∧
      VerifiedClaimsPrincipalResolver.sample.Timely ClaimLibrary.sample 1000 skew timedClaims :=
  (resolved_timely_iff resolve_timed).mpr timed_numbers

/-- A token that expires at nan is accepted at every time. -/
theorem nan_never_expires : ¬ ∀ (resolver : VerifiedClaimsPrincipalResolver) (now : ℚ) (claims : PyDict)
    (method : PyText) (principal : TokenPrincipal),
    resolver.resolve ClaimLibrary.sample now (.verified claims method) = .ok principal →
    ∃ skew : ℚ, floatOfInt resolver.clockSkewSeconds = .ok skew ∧
      resolver.Timely ClaimLibrary.sample now skew claims := fun h => by
  obtain ⟨skew, -, htimely⟩ := h .sample 0 _ _ _ resolve_nan
  obtain ⟨x, ⟨value, hvalue, hx⟩, hlt⟩ := htimely.exp
  have hexp : claimValue (tokenClaims [(.str "exp", .text "nan")]) "exp" = some (.text "nan") := rfl
  obtain rfl := Option.some.inj (hexp.symm.trans hvalue)
  have hnan : ClaimLibrary.sample.float (.text "nan") = .ok .nan := rfl
  obtain rfl := Except.ok.inj (hnan.symm.trans hx)
  exact absurd hlt (by simp)

end Rpr
