import PathwayRuntime.Python.Exception
import PathwayRuntime.Python.Extended
import PathwayRuntime.Python.Number

/-!
# Principals from verified token claims

* `ClaimLibrary`: `str`, and `float` of a text and of a foreign object; `ClaimLibrary.float`: `float(value)`.
* `VerifiedClaimsPrincipalResolver`: its configuration, with what the constructor checks; `.make`: the constructor.
* `VerifiedClaimsPrincipalResolver.resolve`: the checks of a token at a clock value.
-/

set_option autoImplicit false

namespace Rpr

/-! ## Numbers and texts of claims -/

/-- Built-in functions: `str` of a value, `float` of a text and of an object of another type. -/
structure ClaimLibrary (K : Type) where
  str : PyValue → Except PyException PyText
  parse : PyText → Except PyException (Extended K)
  ofObject : String → PyText → Except PyException (Extended K)

def overflowError : PyException := .ofClass "OverflowError" ["ArithmeticError"] "int too large to convert to float"

section Float

variable {K : Type} [Field K]

/-- `float(i)`: from the middle of the largest float and the next power of two on, it overflows. -/
def floatOfInt (i : ℤ) : Except PyException K :=
  if i.natAbs < 2 ^ 1024 - 2 ^ 970 then .ok i else .error overflowError

/-- The number a float is. -/
def PyFloat.toExtended : PyFloat → Extended K
  | .finite x => .finite ((x.scaled.1 : K) / (x.scaled.2 : K))
  | .inf neg => .inf neg
  | .nan => .nan

/-- `float(value)`. -/
def ClaimLibrary.float (lib : ClaimLibrary K) : PyValue → Except PyException (Extended K)
  | .bool b => (floatOfInt b.toInt).map .finite
  | .int i => (floatOfInt i).map .finite
  | .float x => .ok x.toExtended
  | .str s => lib.parse s
  | .object typeName form => lib.ofObject typeName form
  | _ => .error (.typeError "float() argument must be a string or a real number")

end Float

/-- `s.rstrip("/")`. -/
def PyText.rstripSlash (s : PyText) : PyText :=
  .ofCodes ((s.codes.reverse.dropWhile fun c => c == '/'.toNat).reverse)

/-! ## The configuration -/

def principalError (message : PyText) : PyException :=
  .ofClass "PrincipalError" ["PermissionError", "OSError"] message

/-- `if failed: raise PrincipalError(message)`. -/
def requirePrincipal (failed : Bool) (message : String) : Except PyException Unit :=
  if failed then .error (principalError message) else .ok ()

structure VerifiedClaimsPrincipalResolver where
  allowedIssuers : List PyText
  expectedAudience : PyText
  clockSkewSeconds : ℤ
  issuers_nonempty : allowedIssuers ≠ []
  audience_nonempty : expectedAudience.length ≠ 0
  skew_nonneg : 0 ≤ clockSkewSeconds

/-- The constructor. -/
def VerifiedClaimsPrincipalResolver.make (allowedIssuers : List PyText) (expectedAudience : PyText)
    (clockSkewSeconds : ℤ) : Except PyException VerifiedClaimsPrincipalResolver :=
  let issuers := (allowedIssuers.filter fun value => value.strip.length != 0).map PyText.rstripSlash
  let audience := expectedAudience.strip
  if h : issuers ≠ [] ∧ audience.length ≠ 0 ∧ 0 ≤ clockSkewSeconds then
    .ok ⟨issuers, audience, clockSkewSeconds, h.1, h.2.1, h.2.2⟩
  else .error (.valueError "allowed issuers, audience, and non-negative clock skew are required")

/-! ## Resolving -/

/-- What `resolve` is given: `VerifiedTokenClaims`, or anything else. -/
inductive Credential : Type
  | verified (values : PyDict) (verificationMethod : PyText)
  | other

/-- The `Principal` of a token, with the claims it keeps. -/
structure TokenPrincipal where
  subject : PyText
  issuer : PyText
  authenticationMethod : PyText
  claims : List (PyText × PyText)
  deriving DecidableEq

/-- `Principal.__post_init__`. -/
def TokenPrincipal.make (subject issuer authenticationMethod : PyText) (claims : List (PyText × PyText)) :
    Except PyException TokenPrincipal := do
  requirePrincipal (subject.strip.length == 0 || issuer.strip.length == 0 || authenticationMethod.strip.length == 0)
    "subject, issuer, and authentication_method are required"
  .ok ⟨subject, issuer, authenticationMethod, claims⟩

/-- The claims a principal keeps. -/
def safeClaims : List PyText := ["azp", "client_id", "tenant_id", "tid", "scope", "roles"]

/-- `claims.get(name)`, when it is not `None`. -/
def claimValue (claims : PyDict) (name : String) : Option PyValue :=
  match claims.get? name with
  | some .none => none
  | value => value

section Resolve

variable {K : Type} [Field K] [LinearOrder K] (lib : ClaimLibrary K)

/-- `_numeric_claim`. -/
def numericClaim (claims : PyDict) (name : String) (required : Bool) : Except PyException (Option (Extended K)) :=
  match claimValue claims name with
  | none =>
    if required then .error (principalError ("token " ++ name ++ " claim is required")) else .ok none
  | some value =>
    match lib.float value with
    | .ok x => .ok (some x)
    | .error e =>
      if e.isAny ["TypeError", "ValueError"] then
        .error (principalError ("token " ++ name ++ " claim must be numeric"))
      else .error e

/-- `_audience_matches`. -/
def VerifiedClaimsPrincipalResolver.audienceMatches (resolver : VerifiedClaimsPrincipalResolver) :
    Option PyValue → Except PyException Bool
  | some (.str s) => .ok (s == resolver.expectedAudience)
  | some (.list items) | some (.tuple items) => do .ok ((← items.mapM lib.str).contains resolver.expectedAudience)
  | _ => .ok false

/-- The claims a principal keeps, with their texts. -/
def keepClaims (claims : PyDict) : Except PyException (List (PyText × PyText)) :=
  (claims.filterMap fun f => match f.1 with
    | .str key => if key ∈ safeClaims then some (key, f.2) else none
    | .other _ => none).mapM fun f => do .ok (f.1, ← lib.str f.2)

/-- `resolve`, when the clock shows `now`. -/
def VerifiedClaimsPrincipalResolver.resolve (resolver : VerifiedClaimsPrincipalResolver) (now : K) :
    Credential → Except PyException TokenPrincipal
  | .other => .error (principalError "verified claims resolver requires VerifiedTokenClaims")
  | .verified claims verificationMethod => do
    let issuer := (← lib.str ((claims.get? "iss").getD (.text ""))).rstripSlash
    let subject := (← lib.str ((claims.get? "sub").getD (.text ""))).strip
    requirePrincipal (!resolver.allowedIssuers.contains issuer) "token issuer is not allowed"
    requirePrincipal (subject.length == 0) "token subject is required"
    requirePrincipal (!(← resolver.audienceMatches lib (claims.get? "aud"))) "token audience does not match"
    let skew : K ← floatOfInt resolver.clockSkewSeconds
    let exp ← numericClaim lib claims "exp" true
    let nbf ← numericClaim lib claims "nbf" false
    let iat ← numericClaim lib claims "iat" false
    requirePrincipal (exp.any fun exp => exp.le (.finite (now - skew))) "token is expired"
    requirePrincipal (nbf.any fun nbf => (Extended.finite (now + skew)).lt nbf) "token is not yet valid"
    requirePrincipal (iat.any fun iat => (Extended.finite (now + skew)).lt iat) "token issued-at is in the future"
    TokenPrincipal.make subject issuer verificationMethod (← keepClaims lib claims)

end Resolve

end Rpr
