import ZapTrace.Security.Objects

/-!
# The OAuth boundary of the MCP server

Before a request reaches the application, the boundary asks the scopes of its token for what each message of the body
needs. It has to read the body for this, so the application gets a `receive` that replays what was read. On the way
back, a response with the status 401 is replaced by one of the boundary. `loads` is `json.loads`, `sha256` the digest
of a text.

## Main results

* `forwards_iff`: which requests reach the application
* `received_replayed`: the application receives what the client sent
* `normalized_blinded`, `normalized_response`: what the client sees of a response with the status 401
-/

namespace ZapTrace.OAuth

open PyValue (getItem)
open List

/-! ## Capabilities -/

def capabilityLevels : List String := ["read", "preview-write", "sandbox-write", "approved-commit", "release-export"]

/-- `CAPABILITY_RANK.get` -/
def capabilityRank (name : String) : Option ℕ := capabilityLevels.idxOf? name

def authorizeCapability (required : String) (granted : List String) : Bool :=
  required = "read" ∨ (capabilityRank required).any fun required_rank =>
    granted.any fun cap => (capabilityRank cap).any fun rank => required_rank ≤ rank

/-- `OAUTH_SCOPE_TO_CAPABILITY` -/
def scopeToCapability : List (String × String) :=
  [("zaptrace:read", "read"), ("zaptrace:preview-write", "preview-write"), ("zaptrace:sandbox-write", "sandbox-write"),
    ("zaptrace:approved-commit", "approved-commit"), ("zaptrace:release-export", "release-export")]

def capabilitiesFromScopes (scopes : List String) : List String :=
  scopes.filterMap fun scope => scopeToCapability.lookup scope

/-- Whether the capability is allowed, and the scope it takes. -/
def authorizeOauthCapability (required_capability : String) (scopes : List String) : Bool × String :=
  match scopeToCapability.find? fun item => item.2 = required_capability with
  | none => (false, "")
  | some (required_scope, _) =>
    (capabilitiesFromScopes scopes ≠ [] ∧ authorizeCapability required_capability (capabilitiesFromScopes scopes),
      required_scope)

/-! ## Requests -/

structure AccessToken where
  scopes : List String
  claims : PyValue

/-- A claim that is a text and not blank. -/
def AccessToken.claim (token : AccessToken) (name : String) : Option String :=
  match getItem name token.claims with
  | some (.str text) => if pyStrip text = "" then none else some text
  | _ => none

/-- `oauth_principal_from_access_token` -/
def principalFromAccessToken (sha256 : String → String) (token : AccessToken) : Except String RequestPrincipal :=
  match token.claim "iss", token.claim "sub" with
  | none, _ => .error "validated OAuth token is missing issuer identity"
  | _, none => .error "validated OAuth token is missing subject identity"
  | some issuer, some subject =>
    let principal_id := "oauth:" ++ sha256 (issuer ++ "\x00" ++ subject)
    .ok { principal_id, actor := principal_id, scopes := capabilitiesFromScopes token.scopes, authenticated := true }

/-- The operation and the capability of a message; what is no dictionary has no keys. -/
def classifyMessage (tool_capability : String → Option String) (item : PyValue) : String × String :=
  let called := match getItem "method" item, (getItem "params" item).bind (getItem "name") with
    | some (.str "tools/call"), some (.str tool_name) =>
      (tool_capability tool_name).map fun capability => (tool_name, capability)
    | _, _ => none
  called.getD (match getItem "method" item with
    | some (.str method) => (method, "read")
    | _ => ("mcp-request", "read"))

def requestRequirements (tool_capability : String → Option String) (payload : PyValue) : List (String × String) :=
  let messages := match payload with
    | .list items => items
    | payload => [payload]
  let requirements := messages.map (classifyMessage tool_capability)
  if requirements = [] then [("mcp-request", "read")] else requirements

/-! ## Responses -/

structure Response where
  status_code : ℕ
  code : String
  message : String
  details : List (String × String)
  challenge : String

def oauthErrorResponse (missing : Bool) (resource_metadata_url : String) : Response where
  status_code := 401
  code := if missing then "AUTH_REQUIRED" else "AUTH_INVALID_TOKEN"
  message := if missing then "Bearer authentication is required" else "Bearer token is invalid"
  details := []
  challenge := (if missing then "Bearer " else "Bearer error=\"invalid_token\", ") ++
    "resource_metadata=\"" ++ resource_metadata_url ++ "\", scope=\"zaptrace:read\""

def oauthScopeErrorResponse (operation required_capability required_scope resource_metadata_url : String) :
    Response where
  status_code := 403
  code := "OPERATION_NOT_AUTHORIZED"
  message := "missing required OAuth scope: " ++ required_scope
  details := [("operation", operation), ("required_capability", required_capability),
    ("required_scope", required_scope)]
  challenge := "Bearer error=\"insufficient_scope\", scope=\"" ++ required_scope ++ "\", resource_metadata=\"" ++
    resource_metadata_url ++ "\""

/-- `_oauth_authorization_response` on a validated token -/
def authorizationResponse (sha256 : String → String) (tool_capability : String → Option String)
    (resource_metadata_url : String) (token : AccessToken) (payload : PyValue) : Option Response :=
  match principalFromAccessToken sha256 token with
  | .error _ => some (oauthErrorResponse false resource_metadata_url)
  | .ok _ => (requestRequirements tool_capability payload).findSome? fun (operation, required_capability) =>
      let (allowed, required_scope) := authorizeOauthCapability required_capability token.scopes
      if allowed then none
      else some (oauthScopeErrorResponse operation required_capability required_scope resource_metadata_url)

/-! ## Reading the body -/

inductive Message
  | request (body : List UInt8) (more_body : Bool)
  | disconnect
  | other (type : String)

/-- The parts of a body, the messages that were read, and those that were not. -/
structure Captured where
  body_parts : List (List UInt8)
  messages : List Message
  rest : List Message

/-- The loop of `_capture_json_payload`, while there are messages. -/
def capture : List Message → Option Captured
  | [] => none
  | .disconnect :: rest => some ⟨[], [.disconnect], rest⟩
  | .other type :: rest => (capture rest).map fun c => ⟨c.body_parts, .other type :: c.messages, c.rest⟩
  | .request body more_body :: rest =>
    if more_body then (capture rest).map fun c => ⟨body :: c.body_parts, .request body true :: c.messages, c.rest⟩
    else some ⟨[body], [.request body false], rest⟩

/-- The JSON value of a body; a text that is none counts as `None`. -/
def Captured.payload (loads : List UInt8 → Option PyValue) (c : Captured) : PyValue :=
  if c.body_parts = [] then .none else (loads c.body_parts.flatten).getD .none

/-- A `receive`: the messages to replay with the index of the next, and those of the client. -/
structure Receive where
  messages : List Message
  index : ℕ
  rest : List Message

def Receive.next (r : Receive) : Option (Message × Receive) :=
  match r.messages[r.index]? with
  | some message => some (message, { r with index := r.index + 1 })
  | none => match r.rest with
    | [] => none
    | message :: rest => some (message, { r with rest })

/-- What a number of calls receive. -/
def Receive.received : ℕ → Receive → List Message
  | 0, _ => []
  | n + 1, r => match r.next with
    | none => []
    | some (message, r) => message :: r.received n

structure Request where
  type : String
  path : String
  method : String
  token : Option AccessToken
  messages : List Message

inductive Outcome
  | waits
  | denied (response : Response)
  /-- the application is called, behind the boundary or past it -/
  | forwards (normalized : Bool) (receive : Receive)

/-- What is read of a request with a token; other requests than `POST` are not read. -/
def Request.captured (request : Request) : Option Captured :=
  if request.method = "POST" then capture request.messages else some ⟨[], [], request.messages⟩

section Boundary

variable (sha256 : String → String) (loads : List UInt8 → Option PyValue) (tool_capability : String → Option String)
  (resource_metadata_url : String) (request : Request)

/-- `MCPOAuthBoundaryMiddleware.__call__` -/
def boundary : Outcome :=
  if request.type ≠ "http" ∨ request.path ≠ "/mcp" then .forwards false ⟨[], 0, request.messages⟩
  else match request.token with
    | none => .forwards true ⟨[], 0, request.messages⟩
    | some token => match request.captured with
      | none => .waits
      | some c =>
        match authorizationResponse sha256 tool_capability resource_metadata_url token (c.payload loads) with
        | some response => .denied response
        | none => .forwards true ⟨c.messages, 0, c.rest⟩

end Boundary

/-! ## Responses of the application -/

inductive Sent
  | start (status : ℕ) (headers : List (String × String))
  | body (bytes : List UInt8) (more_body : Bool)
  | other (type : String)

/-- `replace_response` after a message. -/
def replacesAfter (replace_response : Bool) : Sent → Bool
  | .start status _ => status = 401
  | _ => replace_response

def normalize (error : Response) (replace_response : Bool) : Sent → List (Sent ⊕ Response)
  | .start status headers => if status = 401 then [] else [.inl (.start status headers)]
  | .body bytes more_body =>
    if ¬ replace_response then [.inl (.body bytes more_body)] else if more_body then [] else [.inr error]
  | .other type => [.inl (.other type)]

/-- What the client is sent, for what the application sends. -/
def normalized (error : Response) : Bool → List Sent → List (Sent ⊕ Response)
  | _, [] => []
  | replace_response, message :: messages =>
    normalize error replace_response message ++ normalized error (replacesAfter replace_response message) messages

/-! ## What the boundary is for -/

/-- A scope of the level of the capability, or of a higher one. -/
def Grants (scopes : List String) (capability : String) : Prop :=
  ∃ i j : ℕ, i ≤ j ∧ capabilityLevels[i]? = some capability ∧
    ∃ level, capabilityLevels[j]? = some level ∧ "zaptrace:" ++ level ∈ scopes

/-- The messages without the headers and the bytes of responses with the status 401. -/
def blinded : Bool → List Sent → List Sent
  | _, [] => []
  | replace_response, message :: messages =>
    (match message with
      | .start status headers => .start status (if status = 401 then [] else headers)
      | .body bytes more_body => .body (if replace_response then [] else bytes) more_body
      | .other type => .other type) :: blinded (replacesAfter replace_response message) messages

/-! ## Authorization -/

theorem lookup_scopeToCapability_iff {scope capability : String} :
    scopeToCapability.lookup scope = some capability ↔
      capability ∈ capabilityLevels ∧ scope = "zaptrace:" ++ capability := by
  constructor
  · intro h
    obtain ⟨before, after, hitems, -⟩ := lookup_eq_some_iff.mp h
    have hmem : (scope, capability) ∈ scopeToCapability := hitems ▸ mem_append_right _ mem_cons_self
    simp only [scopeToCapability, mem_cons, Prod.mk.injEq, not_mem_nil, or_false] at hmem
    rcases hmem with ⟨rfl, rfl⟩ | ⟨rfl, rfl⟩ | ⟨rfl, rfl⟩ | ⟨rfl, rfl⟩ | ⟨rfl, rfl⟩ <;> decide
  · rintro ⟨hmem, rfl⟩
    revert capability
    decide

theorem capabilityRank_iff {name : String} {i : ℕ} :
    capabilityRank name = some i ↔ capabilityLevels[i]? = some name := by
  have hnodup : capabilityLevels.Nodup := by decide
  constructor
  · intro h
    obtain ⟨hlt, heq, -⟩ := idxOf?_eq_some_iff.mp h
    exact List.getElem?_eq_some_iff.mpr ⟨hlt, heq⟩
  · intro h
    obtain ⟨hlt, rfl⟩ := List.getElem?_eq_some_iff.mp h
    exact idxOf?_eq_some_iff.mpr ⟨hlt, rfl, fun j hj heq => absurd (hnodup.getElem_inj_iff.mp heq) hj.ne⟩

/-- **The scopes of a token allow** what is at their levels or below. -/
theorem authorizeOauthCapability_iff {scopes : List String} {capability : String} :
    (authorizeOauthCapability capability scopes).1 = true ↔ Grants scopes capability := by
  have hcaps : ∀ level, level ∈ capabilitiesFromScopes scopes ↔
      level ∈ capabilityLevels ∧ "zaptrace:" ++ level ∈ scopes := by
    intro level
    simp only [capabilitiesFromScopes, mem_filterMap, lookup_scopeToCapability_iff]
    exact ⟨fun ⟨_, hscope, hlevel, heq⟩ => ⟨hlevel, heq ▸ hscope⟩, fun ⟨hlevel, hscope⟩ => ⟨_, hscope, hlevel, rfl⟩⟩
  have hallowed : (authorizeOauthCapability capability scopes).1 = true ↔ capability ∈ capabilityLevels ∧
      capabilitiesFromScopes scopes ≠ [] ∧ authorizeCapability capability (capabilitiesFromScopes scopes) := by
    by_cases hmem : capability ∈ capabilityLevels
    · have hfind : ∀ level ∈ capabilityLevels, scopeToCapability.find? (fun item => item.2 = level) =
          some ("zaptrace:" ++ level, level) := by decide
      simp [authorizeOauthCapability, hfind _ hmem, hmem]
    · have hfind : scopeToCapability.find? (fun item => item.2 = capability) = none := by
        rw [find?_eq_none]
        intro item hitem heq
        have hlevels : ∀ item ∈ scopeToCapability, item.2 ∈ capabilityLevels := by decide
        exact hmem (of_decide_eq_true heq ▸ hlevels item hitem)
      simp [authorizeOauthCapability, hfind, hmem]
  rw [hallowed]
  constructor
  · rintro ⟨hmem, hne, hauthorized⟩
    rcases of_decide_eq_true hauthorized with rfl | hrank
    · -- reading takes any of the scopes
      obtain ⟨level, hlevel⟩ := exists_mem_of_ne_nil _ hne
      obtain ⟨hlevel, hscope⟩ := (hcaps level).mp hlevel
      obtain ⟨j, hj⟩ := mem_iff_getElem?.mp hlevel
      exact ⟨0, j, Nat.zero_le j, rfl, level, hj, hscope⟩
    · obtain ⟨i, hi, hany⟩ := (Option.any_eq_true _ _).mp hrank
      obtain ⟨level, hlevel, hany⟩ := any_eq_true.mp hany
      obtain ⟨j, hj, hij⟩ := (Option.any_eq_true _ _).mp hany
      exact ⟨i, j, of_decide_eq_true hij, capabilityRank_iff.mp hi, level, capabilityRank_iff.mp hj,
        ((hcaps level).mp hlevel).2⟩
  · rintro ⟨i, j, hij, hi, level, hj, hscope⟩
    have hlevel : level ∈ capabilitiesFromScopes scopes := (hcaps level).mpr ⟨mem_of_getElem? hj, hscope⟩
    refine ⟨mem_of_getElem? hi, ne_nil_of_mem hlevel, decide_eq_true (Or.inr ?_)⟩
    rw [capabilityRank_iff.mpr hi]
    refine any_eq_true.mpr ⟨level, hlevel, ?_⟩
    rw [capabilityRank_iff.mpr hj]
    exact decide_eq_true hij

section Boundary

variable {sha256 : String → String} {loads : List UInt8 → Option PyValue} {tool_capability : String → Option String}
  {resource_metadata_url : String} {request : Request}

theorem authorizationResponse_eq_none_iff {token : AccessToken} {payload : PyValue} :
    authorizationResponse sha256 tool_capability resource_metadata_url token payload = none ↔
      (∃ principal, principalFromAccessToken sha256 token = .ok principal) ∧
        ∀ requirement ∈ requestRequirements tool_capability payload, Grants token.scopes requirement.2 := by
  unfold authorizationResponse
  cases hprincipal : principalFromAccessToken sha256 token with
  | error e => simp
  | ok principal =>
    simp only [findSome?_eq_none_iff, ite_eq_left_iff, reduceCtorEq, imp_false, not_not, authorizeOauthCapability_iff]
    exact ⟨fun h => ⟨⟨principal, rfl⟩, h⟩, And.right⟩

/-- **A request reaches the application** past the boundary, without a token, or when the scopes of its token grant what
each message of its body needs. -/
theorem forwards_iff :
    (∃ normalized receive, boundary sha256 loads tool_capability resource_metadata_url request =
        .forwards normalized receive) ↔
      (request.type ≠ "http" ∨ request.path ≠ "/mcp") ∨ request.token = none ∨
        ∃ token ∈ request.token, ∃ c ∈ request.captured,
          (∃ principal, principalFromAccessToken sha256 token = .ok principal) ∧
            ∀ requirement ∈ requestRequirements tool_capability (c.payload loads), Grants token.scopes requirement.2 := by
  unfold boundary
  split
  · rename_i hpast
    exact iff_of_true ⟨_, _, rfl⟩ (Or.inl hpast)
  · rename_i hguarded
    rw [or_iff_right hguarded]
    cases request.token with
    | none => simp
    | some token => cases request.captured with
      | none => simp
      | some c =>
        have hnone : authorizationResponse sha256 tool_capability resource_metadata_url token (c.payload loads) = none ↔ _ :=
          authorizationResponse_eq_none_iff
        simp only [Option.mem_some_iff, exists_eq_left', reduceCtorEq, false_or]
        rw [← hnone]
        cases authorizationResponse sha256 tool_capability resource_metadata_url token (c.payload loads) <;> simp

end Boundary

/-! ## The replayed body -/

theorem capture_spec {messages : List Message} {c : Captured} (h : capture messages = some c) :
    c.messages ++ c.rest = messages := by
  induction messages generalizing c with
  | nil => cases h
  | cons message messages ih =>
    cases message with
    | disconnect =>
      cases h
      rfl
    | other type =>
      obtain ⟨c', hc, rfl⟩ := Option.map_eq_some_iff.mp h
      exact congrArg (Message.other type :: ·) (ih hc)
    | request body more_body =>
      unfold capture at h
      split at h
      · rename_i hmore
        obtain ⟨c', hc, rfl⟩ := Option.map_eq_some_iff.mp h
        rw [hmore]
        exact congrArg (Message.request body true :: ·) (ih hc)
      · rename_i hlast
        cases h
        simp [hlast]

theorem received_spec (n : ℕ) (r : Receive) : r.received n = (r.messages.drop r.index ++ r.rest).take n := by
  induction n generalizing r with
  | zero => rfl
  | succ n ih =>
    unfold Receive.received Receive.next
    cases hget : r.messages[r.index]? with
    | some message =>
      obtain ⟨hlt, hmessage⟩ := List.getElem?_eq_some_iff.mp hget
      rw [drop_eq_getElem_cons hlt, hmessage]
      exact congrArg (message :: ·) (ih _)
    | none =>
      rw [drop_eq_nil_of_le (List.getElem?_eq_none_iff.mp hget)]
      cases hrest : r.rest with
      | nil => rfl
      | cons message rest =>
        refine congrArg (message :: ·) ((ih _).trans ?_)
        rw [drop_eq_nil_of_le (List.getElem?_eq_none_iff.mp hget)]
        rfl

/-- **The application receives what the client sent**, in its order. -/
theorem received_replayed {sha256 : String → String} {loads : List UInt8 → Option PyValue}
    {tool_capability : String → Option String} {resource_metadata_url : String} {request : Request} {normalized : Bool}
    {receive : Receive}
    (h : boundary sha256 loads tool_capability resource_metadata_url request = .forwards normalized receive) (n : ℕ) :
    receive.received n = request.messages.take n := by
  rw [received_spec]
  unfold boundary at h
  split at h
  · cases h
    rfl
  · split at h
    · cases h
      rfl
    · split at h
      · cases h
      · rename_i c hcaptured
        split at h
        · cases h
        · cases h
          unfold Request.captured at hcaptured
          split at hcaptured
          · exact congrArg (take n) (capture_spec hcaptured)
          · cases hcaptured
            rfl

/-- A request in two parts. -/
def postRequest : Request where
  type := "http"
  path := "/mcp"
  method := "POST"
  token := some ⟨["zaptrace:read"], .dict [(.str "iss", .str "https://issuer"), (.str "sub", .str "user")]⟩
  messages := [.request [123] true, .request [125] false, .disconnect]

theorem received_postRequest : ∃ receive,
    boundary id (fun _ => none) (fun _ => none) "" postRequest = .forwards true receive ∧
      receive.received 3 = postRequest.messages := by
  have h : boundary id (fun _ => none) (fun _ => none) "" postRequest =
      .forwards true ⟨postRequest.messages.take 2, 0, [.disconnect]⟩ := rfl
  exact ⟨_, h, received_replayed h 3⟩

/-! ## The response -/

/-- **The client sees nothing** of the headers and the bytes of a response with the status 401. -/
theorem normalized_blinded (error : Response) (replace_response : Bool) (messages : List Sent) :
    normalized error replace_response (blinded replace_response messages) =
      normalized error replace_response messages := by
  induction messages generalizing replace_response with
  | nil => rfl
  | cons message messages ih =>
    cases message with
    | start status headers =>
      by_cases hstatus : status = 401 <;> simp [blinded, normalized, normalize, replacesAfter, ih, hstatus]
    | body bytes more_body =>
      cases replace_response <;> simp [blinded, normalized, normalize, replacesAfter, ih]
    | other type => simp [blinded, normalized, normalize, replacesAfter, ih]

/-- **A response is replaced as a whole**, or not at all. -/
theorem normalized_response (error : Response) (replace_response : Bool) (status : ℕ) (headers : List (String × String))
    (chunks : List (List UInt8)) (last : List UInt8) :
    normalized error replace_response (.start status headers :: (chunks.map (Sent.body · true) ++ [Sent.body last false])) =
      if status = 401 then [.inr error]
      else (Sent.start status headers :: (chunks.map (Sent.body · true) ++ [Sent.body last false])).map .inl := by
  have hbodies : ∀ replaced, normalized error replaced (chunks.map (Sent.body · true) ++ [Sent.body last false]) =
      if replaced then [.inr error] else (chunks.map (Sent.body · true) ++ [Sent.body last false]).map .inl := by
    intro replaced
    induction chunks with
    | nil => cases replaced <;> rfl
    | cons chunk chunks ih => cases replaced <;> simp_all [normalized, normalize, replacesAfter]
  by_cases hstatus : status = 401 <;> simp [normalized, normalize, replacesAfter, hbodies, hstatus]

end ZapTrace.OAuth
