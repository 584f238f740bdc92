import PathwayRuntime.Http.Once

/-!
# Which origins are contacted

`urlopen` follows redirects: after an answer with a `Location` it sends another request there.

* `ServerAnswer`, `nextRequest`: one answer, and the request `urllib` sends after it.
* `sentTo`, `contacted`: the URLs requests are sent to, for a chain of answers.
* `Confined`: every redirect that is followed leads to an allowed origin.
* **`contacted_allowed_iff`**: only allowed origins are contacted exactly when a `POST` is confined.
* `redirected_contacts`: an allowed server sends the executor elsewhere.
-/

set_option autoImplicit false

namespace Rpr

/-! ## Redirects -/

/-- What a server answers: its status, and its `Location`. -/
structure ServerAnswer where
  status : ℤ
  location : Option PyText

/-- `redirect_request`: the method of the next request; a `POST` becomes a `GET`. -/
def redirectMethod (status : ℤ) (method : PyText) : Option PyText :=
  if status ∈ [301, 302, 303, 307, 308] ∧ method ∈ ["GET", "HEAD"].map PyText.utf8 then some method
  else if status ∈ [301, 302, 303] ∧ method = "POST" then some "GET"
  else none

/-- `max_repeats` and `max_redirections`. -/
def maxRepeats : ℕ := 4
def maxRedirections : ℕ := 10

/-- `HTTPRedirectHandler.http_error_302`: the method and the URL of the request that follows an answer, with
`urljoin` given. The URLs that were redirected to before bound it; a redirect to FTP is no HTTP request. -/
def nextRequest (lib : HttpLibrary) (urljoin : PyText → PyText → Except PyException PyText)
    (method url : PyText) (visited : List PyText) (answer : ServerAnswer) : Option (PyText × PyText) :=
  match answer.location with
  | none => none
  | some location =>
    match lib.urlparse location, urljoin url location, redirectMethod answer.status method with
    | .ok parsed, .ok next, some method =>
      if parsed.scheme ∉ ["http", "https", ""].map PyText.utf8 then none
      else if visited.count next ≥ maxRepeats ∨ visited.dedup.length ≥ maxRedirections then none
      else some (method, next)
    | _, _, _ => none

section Chain

variable (lib : HttpLibrary) (urljoin : PyText → PyText → Except PyException PyText)

/-- The URLs `urlopen` sends requests to, for the answers of the servers in order. -/
def sentTo (method url : PyText) (visited : List PyText) : List ServerAnswer → List PyText
  | [] => [url]
  | answer :: chain =>
    url :: match nextRequest lib urljoin method url visited answer with
      | none => []
      | some (method, next) => sentTo method next (next :: visited) chain

/-- The URLs a call sends requests to. -/
def HttpOutcome.contacted (chain : List ServerAnswer) (outcome : HttpOutcome) : List PyText :=
  match outcome.opened with
  | none => []
  | some http => sentTo lib urljoin http.method http.url [] chain

/-- The URL has an origin that is allowed. -/
def HttpMutationExecutor.Allows (ex : HttpMutationExecutor) (url : PyText) : Prop :=
  ∃ origin, normalizeOrigin lib url = .ok origin ∧ origin ∈ ex.allowedOrigins

/-- Each redirect that is followed leads to an allowed origin. -/
def Confined (ex : HttpMutationExecutor) (method url : PyText) (visited : List PyText) :
    List ServerAnswer → Prop
  | [] => True
  | answer :: chain =>
    ∀ method' next, nextRequest lib urljoin method url visited answer = some (method', next) →
      ex.Allows lib next ∧ Confined ex method' next (next :: visited) chain

variable {lib urljoin} {ex : HttpMutationExecutor}

/-- **A chain** stays with the allowed origins exactly when it begins there and is confined. -/
theorem sentTo_allowed (chain : List ServerAnswer) (method url : PyText) (visited : List PyText) :
    (∀ u ∈ sentTo lib urljoin method url visited chain, ex.Allows lib u) ↔
      ex.Allows lib url ∧ Confined lib urljoin ex method url visited chain := by
  induction chain generalizing method url visited with
  | nil => simp [sentTo, Confined]
  | cons answer chain ih =>
    rw [sentTo, List.forall_mem_cons, Confined]
    refine and_congr_right fun _ => ?_
    cases hnext : nextRequest lib urljoin method url visited answer with
    | none => simp
    | some next =>
      obtain ⟨method', next⟩ := next
      simp only [Option.some.injEq, Prod.mk.injEq, ih]
      exact ⟨fun h _ _ heq => heq.1 ▸ heq.2 ▸ h, fun h => h _ _ ⟨rfl, rfl⟩⟩

/-- Only `GET`, `HEAD` and `POST` are redirected. -/
theorem nextRequest_none {method url : PyText} {visited : List PyText} {answer : ServerAnswer}
    (h : method ∉ ["GET", "HEAD", "POST"].map PyText.utf8) :
    nextRequest lib urljoin method url visited answer = none := by
  have hmethod : redirectMethod answer.status method = none := by
    simp only [List.map_cons, List.map_nil, List.mem_cons, List.not_mem_nil, or_false, not_or] at h
    simp [redirectMethod, h]
  rw [nextRequest]
  cases answer.location with
  | none => rfl
  | some location =>
    simp only [hmethod]
    split
    · rename_i hsome
      cases hsome
    · rfl

theorem confined_of_method {method url : PyText} {visited : List PyText} (chain : List ServerAnswer)
    (h : method ∉ ["GET", "HEAD", "POST"].map PyText.utf8) :
    Confined lib urljoin ex method url visited chain := by
  cases chain with
  | nil => trivial
  | cons answer chain =>
    intro method' next hnext
    rw [nextRequest_none h] at hnext
    cases hnext

end Chain

/-! ## The first request -/

section First

variable {py : Platform} {lib : HttpLibrary} {ex : HttpMutationExecutor} {request : ExecutionRequest}

/-- `str(request.parameters["url"])`. -/
def requestUrl (lib : HttpLibrary) (request : ExecutionRequest) : Except PyException PyText := do
  lib.str (← request.parameters.getItem "url")

/-- `str(request.parameters.get("method", "POST")).upper()`. -/
def requestMethod (lib : HttpLibrary) (request : ExecutionRequest) : Except PyException PyText := do
  let method ← lib.str ((request.parameters.get? "method").getD (.text "POST"))
  .ok (lib.upper method)

/-- **A valid URL has an allowed origin.** -/
theorem validateUrl_allows {url : PyText} (h : validateUrl lib ex url = .ok ()) : ex.Allows lib url := by
  obtain ⟨parsed, -, h⟩ := except_bind_eq_ok.mp h
  by_cases huser : (present parsed.username || present parsed.password || parsed.fragment.length != 0) = true
  · simp [huser] at h
  rw [if_neg huser] at h
  by_cases hscheme : parsed.scheme ∉ (if ex.allowInsecureHttp then ["https", "http"] else ["https"]).map PyText.utf8
  · rw [if_pos hscheme] at h
    cases h
  rw [if_neg hscheme] at h
  obtain ⟨origin, horigin, h⟩ := except_bind_eq_ok.mp h
  by_cases hallowed : origin ∈ ex.allowedOrigins
  · exact ⟨origin, horigin, hallowed⟩
  · rw [if_pos hallowed] at h
    cases h

/-- **The request that is prepared** has the URL and the method of the parameters, and an allowed origin. -/
theorem prepare_request {http : HttpRequest} (h : ex.prepare lib request = .ok (.inr http)) :
    requestUrl lib request = .ok http.url ∧ requestMethod lib request = .ok http.method ∧
      http.method ∈ ["POST", "PUT", "PATCH", "DELETE"].map PyText.utf8 ∧ ex.Allows lib http.url := by
  obtain ⟨value, hvalue, h⟩ := except_bind_eq_ok.mp h
  obtain ⟨url, hurl, h⟩ := except_bind_eq_ok.mp h
  obtain ⟨method, hmethod, h⟩ := except_bind_eq_ok.mp h
  have hurl' : requestUrl lib request = .ok url := by
    rw [requestUrl, hvalue]
    exact hurl
  have hmethod' : requestMethod lib request = .ok (lib.upper method) := by
    rw [requestMethod, hmethod]
    rfl
  dsimp only at h
  by_cases hknown : lib.upper method ∉ ["POST", "PUT", "PATCH", "DELETE"].map PyText.utf8
  · rw [if_pos hknown] at h
    cases h
  rw [if_neg hknown] at h
  obtain ⟨u, hvalid, h⟩ := except_bind_eq_ok.mp h
  obtain ⟨payload, -, h⟩ := except_bind_eq_ok.mp h
  split at h
  · obtain ⟨headers, -, h⟩ := except_bind_eq_ok.mp h
    cases headers with
    | inl lower => cases h
    | inr headers =>
      obtain ⟨v, -, h⟩ := except_bind_eq_ok.mp h
      obtain rfl := Sum.inr.inj (Except.ok.inj h)
      exact ⟨hurl', hmethod', not_not.mp hknown, validateUrl_allows hvalid⟩
  · cases h

/-- The call gets to `urlopen`: nothing is kept under its key, and a request is prepared. -/
def HttpMutationExecutor.Dispatches (py : Platform) (lib : HttpLibrary) (ex : HttpMutationExecutor)
    (request : ExecutionRequest) (results : HttpResults) : Prop :=
  (∃ fingerprint, httpFingerprint py lib request = .ok fingerprint) ∧
    results.lookup request.idempotencyKey = none ∧ request.action = "http_json_mutation" ∧
      ∃ http, ex.prepare lib request = .ok (.inr http)

/-- **What is opened** is the request that is prepared, if the call gets there. -/
theorem opened_eq_some {env : HttpEnv} {results : HttpResults} {http : HttpRequest} :
    (ex.execute py lib env request results).opened = some http ↔
      ex.Dispatches py lib request results ∧ ex.prepare lib request = .ok (.inr http) := by
  rw [HttpMutationExecutor.execute, HttpMutationExecutor.Dispatches]
  cases hf : httpFingerprint py lib request with
  | error e => simp
  | ok fingerprint =>
    cases hl : results.lookup request.idempotencyKey with
    | some known => simp
    | none =>
      dsimp only
      by_cases haction : request.action = "http_json_mutation"
      · rw [if_neg (not_not.mpr haction)]
        cases hp : ex.prepare lib request with
        | error e =>
          simp only [(settle_results env results request.idempotencyKey fingerprint none (.error e)).1]
          simp
        | ok prepared =>
          cases prepared with
          | inl early => simp
          | inr http' =>
            simp only [(settle_results env results request.idempotencyKey fingerprint (some http')
              (ex.answer env request)).1]
            simp [haction]
      · rw [if_pos haction]
        simp [haction]

/-- **Only allowed origins are contacted** by a call, whatever the servers answer, exactly when it does not
get to `urlopen`, or its method is not `POST`, or every redirect that is followed from its URL leads to an
allowed origin. -/
theorem contacted_allowed_iff (py : Platform) (lib : HttpLibrary)
    (urljoin : PyText → PyText → Except PyException PyText) (ex : HttpMutationExecutor) (env : HttpEnv)
    (request : ExecutionRequest) (results : HttpResults) (chain : List ServerAnswer) :
    (∀ url ∈ (ex.execute py lib env request results).contacted lib urljoin chain, ex.Allows lib url) ↔
      (ex.Dispatches py lib request results → requestMethod lib request = .ok "POST" →
        ∀ url, requestUrl lib request = .ok url → Confined lib urljoin ex "POST" url [] chain) := by
  cases hopened : (ex.execute py lib env request results).opened with
  | none =>
    have hnot : ¬ ex.Dispatches py lib request results := by
      intro h
      obtain ⟨http, hhttp⟩ := h.2.2.2
      have hsome : (ex.execute py lib env request results).opened = some http := opened_eq_some.mpr ⟨h, hhttp⟩
      rw [hopened] at hsome
      cases hsome
    rw [HttpOutcome.contacted, hopened]
    exact iff_of_true (fun url h => absurd h List.not_mem_nil) fun h => absurd h hnot
  | some http =>
    obtain ⟨hdispatches, hprepare⟩ := opened_eq_some.mp hopened
    obtain ⟨hurl, hmethod, hknown, hallows⟩ := prepare_request hprepare
    rw [HttpOutcome.contacted, hopened, imp_iff_right hdispatches, hurl, hmethod]
    dsimp only
    rw [sentTo_allowed, and_iff_right hallows]
    simp only [Except.ok.injEq, forall_eq']
    by_cases hpost : http.method = "POST"
    · rw [hpost, imp_iff_right rfl]
    · refine iff_of_true (confined_of_method chain ?_) fun h => absurd h hpost
      -- The other methods are not redirected.
      simp only [List.map_cons, List.map_nil, List.mem_cons, List.not_mem_nil, or_false] at hknown ⊢
      rcases hknown with h | h | h | h
      · exact absurd h hpost
      all_goals
        rw [h]
        decide

end First

/-! ## A redirect elsewhere -/

/-- A `urlparse` that knows two hosts. -/
def HttpLibrary.twoHosts : HttpLibrary where
  __ := HttpLibrary.sample
  urlparse url := .ok ⟨"https", some (if url = "https://evil/" then "evil" else "host"), .ok none, none, none, ""⟩

/-- **An allowed server sends the executor elsewhere**: a `POST` to it that is answered with `302`. -/
theorem redirected_contacts : ¬ ∀ url ∈ (HttpMutationExecutor.sample.execute .sample .twoHosts
      truncatedBody (httpRequest "k" (by decide)) ∅).contacted .twoHosts (fun _ location => .ok location)
      [⟨302, some "https://evil/"⟩], HttpMutationExecutor.sample.Allows .twoHosts url := by
  intro h
  obtain ⟨origin, horigin, hallowed⟩ := h "https://evil/" (by decide +kernel)
  have hevil : normalizeOrigin .twoHosts "https://evil/" = .ok "https://evil:443" := by decide +kernel
  obtain rfl := Except.ok.inj (hevil.symm.trans horigin)
  exact absurd hallowed (by decide)

end Rpr
