import Umail.Api.Tools
import Umail.Auth.Provisioning
import Umail.Web.Session

/-! # MCP requests

  `apps/server/src/api/mcp/route.ts` over the auth database and the account
  store. A request is served when its token is for the MCP resource, names the
  operator, and its client has a policy at the moment the grant is read; the
  tool then runs under that policy, whatever happens to the grant meanwhile.
-/

namespace Umail

open Lts Relational

section mcp
variable [Unicode] [DateTime] [Base64Url] {ids : IdNames}

/-! ### The two databases -/

structure ServerState where
  auth : AuthDb
  store : Store

structure ServerInput (ids : IdNames) where
  auth : AuthInput ids
  api : ApiInput

/-- The part of `ApiDeps` that the server computes with, and what a deployment needs. -/
structure ServerDeps where
  api : ApiPorts
  console : ConsoleDeps
  tokens : TokenLibrary
  passwords : PasswordLibrary

def onAuth {α : Type} (p : Proc AuthDb (AuthInput ids) α) :
    Proc ServerState (ServerInput ids) α :=
  p.focus (·.auth) (fun s auth => { s with auth }) (·.auth)

def onStore {α : Type} (p : Proc Store ApiInput α) : Proc ServerState (ServerInput ids) α :=
  p.focus (·.store) (fun s store => { s with store }) (·.api)

/-! ### Serving a request -/

/-- A `POST` to `/mcp` that calls a tool. -/
structure McpRequest where
  method : String
  authorization : Option String
  call : ToolCall

inductive McpAnswer where
  | methodNotAllowed
  /-- The token is not accepted; `error="invalid_token"` when one was sent. -/
  | challenge (error : AccessError) (invalidToken : Bool)
  | noPolicy
  | served (result : Except Failure ToolOutput)
  | failed

inductive McpPrincipal where
  | revoked
  | no_policy
  | principal (principal : Principal)

/-- `/^Bearer\s/i` -/
def tokenSent (authorization : Option String) : Bool :=
  match (authorization.getD "").toList with
  | b :: e :: a :: r :: e' :: r' :: space :: _ =>
    [b, e, a, r, e', r'].map Char.toLower = "bearer".toList && isWhiteSpace space
  | _ => false

def AccessError.isUnauthorized : AccessError → Bool
  | .unauthorized _ => true
  | .insufficientScope _ => false

/-- `mcpChallengeResponse` -/
def mcpChallengeResponse (error : AccessError) (tokenSent : Bool) : McpAnswer :=
  .challenge error (tokenSent && error.isUnauthorized)

def mcpRequirements (deps : ConsoleDeps) : OAuthResourceRequirements where
  issuer := deps.origin ++ "/api/auth"
  audience := deps.origin ++ "/mcp"
  scopes := [UMAIL_OAUTH_SCOPE]

/-- The principal of a client, whose label starts with `slice(0, 12)` of its id. -/
def mcpPrincipal (access : OAuthAccess) (policy : PrincipalPolicy) : Principal where
  authority := .mcp
  identity :=
    { userId := access.subject
      clientId := access.clientId
      clientLabel := "OAuth client " ++
        String.ofList (JsString.wellFormed ((JsString.ofString access.clientId).take 12)) }
  policy

def mcpPrincipalForAccess (operatorId : String) (access : OAuthAccess) :
    AuthOperation ids McpPrincipal :=
  if access.subject ≠ operatorId then pure .revoked
  else do
    let grant ← mcpGrant operatorId access.clientId
    match grant with
    | .none => return .revoked
    | .no_policy => return .no_policy
    | .policy policy => return .principal (mcpPrincipal access policy)

def serveAuthenticatedMcp (deps : ServerDeps) (request : McpRequest) (access : OAuthAccess) :
    Proc ServerState (ServerInput ids) McpAnswer := do
  let principal ← onAuth (mcpPrincipalForAccess deps.console.operatorId access).run
  match principal with
  | .error _ => return .failed
  | .ok .revoked => return mcpChallengeResponse revokedAccess true
  | .ok .no_policy => return .noPolicy
  | .ok (.principal principal) => do
    let result ← onStore (request.call.run deps.api principal).run
    return .served result

def serveMcpRequest (deps : ServerDeps) (request : McpRequest) :
    Proc ServerState (ServerInput ids) McpAnswer :=
  if request.method ≠ "POST" then pure .methodNotAllowed
  else do
    let now ← Proc.take fun i => i.api.now
    match verifyOAuthResourceRequest deps.tokens request.authorization
        (mcpRequirements deps.console) now with
    | .error error => return mcpChallengeResponse error (tokenSent request.authorization)
    | .ok access => serveAuthenticatedMcp deps request access

/-! ### What a request is granted -/

variable {deps : ServerDeps} {request : McpRequest}

/-- The token of the request gives this access at some instant. -/
def McpRequest.Presents (deps : ServerDeps) (request : McpRequest) (access : OAuthAccess) : Prop :=
  ∃ now, verifyOAuthResourceRequest deps.tokens request.authorization
    (mcpRequirements deps.console) now = .ok access

/-- A change that the request makes is allowed by the policy that its client
    had in one of the states `T`. -/
def McpRequest.Granted (deps : ServerDeps) (T : ServerState → Prop) (request : McpRequest)
    (s s' : ServerState) : Prop :=
  s' = s ∨ ∃ access policy s₀,
    request.Presents deps access ∧ access.subject = deps.console.operatorId ∧ T s₀ ∧
      s₀.auth.mcpGrant deps.console.operatorId access.clientId = .policy policy ∧
      s'.auth = s.auth ∧ (∃ c : Command, c.Issued ∧ s'.store = s.store.exec c) ∧
      Confined (mcpPrincipal access policy) s.store s'.store

/-- What a request relies on, and what it does, in view of the states `T`. -/
structure McpServes (F : Interference ServerState (ServerInput ids)) (deps : ServerDeps)
    (T : ServerState → Prop) (request : McpRequest) : Prop where
  inv : ∀ s, F.inv s → s.store.Issued ∧ T s
  rely : ∀ s s', F.rely s s' → s.store.Evolves s'.store
  accepts : ∀ s i, F.accepts s i → i.api.fresh deps.api s.store = true
  granted : ∀ s s', F.inv s → request.Granted deps T s s' → F.guarantee s s'

variable {F : Interference ServerState (ServerInput ids)} {T : ServerState → Prop}

omit [DateTime] [Base64Url] in
/-- The grant is read in one of the states. -/
theorem mcpPrincipalForAccess_ensures (hF : McpServes F deps T request) (access : OAuthAccess)
    (s : ServerState) :
    (onAuth (mcpPrincipalForAccess deps.console.operatorId access :
        AuthOperation ids McpPrincipal).run).Ensures F
      (fun result _ => ∀ principal, result = .ok (.principal principal) →
        access.subject = deps.console.operatorId ∧ ∃ policy s₀, T s₀ ∧
          s₀.auth.mcpGrant deps.console.operatorId access.clientId = .policy policy ∧
          principal = mcpPrincipal access policy) s := by
  -- reading the grant leaves the database as it is
  let E : Interference AuthDb (AuthInput ids) :=
    { inv := fun db => ∃ s₀, T s₀ ∧ s₀.auth = db
      rely := fun _ _ => True
      guarantee := fun db db' => db' = db
      accepts := fun _ _ => True
      refl := fun _ => trivial
      trans := fun _ _ _ _ _ => trivial }
  have hensures : (mcpPrincipalForAccess deps.console.operatorId access :
      AuthOperation ids McpPrincipal).Ensures E fun result => ∀ principal,
        result = .principal principal →
          access.subject = deps.console.operatorId ∧ ∃ policy s₀, T s₀ ∧
            s₀.auth.mcpGrant deps.console.operatorId access.clientId = .policy policy ∧
            principal = mcpPrincipal access policy := by
    unfold mcpPrincipalForAccess
    split
    · exact auth_pure fun principal h => absurd h (by simp)
    next hsubject =>
    refine auth_bind ((mcpGrant_ensures (fun _ => rfl) _ _).mono fun grant hgrant => ?_)
    split
    · exact auth_pure fun principal h => absurd h (by simp)
    · exact auth_pure fun principal h => absurd h (by simp)
    · next policy =>
      refine auth_pure fun principal h => ?_
      obtain rfl := McpPrincipal.principal.inj h
      obtain ⟨-, ⟨s₀, hs₀, rfl⟩, hpolicy⟩ := hgrant
      exact ⟨not_not.mp hsubject, policy, s₀, hs₀, hpolicy, rfl⟩
  refine (Proc.Ensures.focus (E := E) (fun _ _ => rfl) (fun _ _ _ => trivial)
    (fun t ht => ⟨t, (hF.inv t ht).2, rfl⟩) (fun _ _ _ => trivial) ?_
    (hensures s.auth)).mono ?_
  · intro t db hinv hguarantee
    obtain rfl : db = t.auth := hguarantee
    exact hF.granted _ _ hinv (.inl rfl)
  · intro result s' hresult principal heq
    exact hresult.1 _ heq principal rfl

/-- The tool does what the policy of its principal allows. -/
theorem toolCall_ensures (hF : McpServes F deps T request) {access : OAuthAccess}
    {policy : PrincipalPolicy} {s₀ : ServerState} (hpresents : request.Presents deps access)
    (hsubject : access.subject = deps.console.operatorId) (hs₀ : T s₀)
    (hpolicy : s₀.auth.mcpGrant deps.console.operatorId access.clientId = .policy policy)
    (s : ServerState) :
    (onStore (request.call.run deps.api (mcpPrincipal access policy)).run :
      Proc ServerState (ServerInput ids) _).Ensures F (fun _ _ => True) s := by
  have hsafe := request.call.run_safe deps.api (mcpPrincipal access policy) s.store
  refine (Proc.Ensures.focus (fun _ _ => rfl) hF.rely (fun t ht => (hF.inv t ht).1)
    hF.accepts ?_ hsafe).mono fun _ _ _ => trivial
  intro t store hinv hguarantee
  refine hF.granted _ _ hinv ?_
  rcases hguarantee with rfl | ⟨-, hcommand, hconfined, -⟩
  · exact .inl rfl
  · exact .inr ⟨access, policy, s₀, hpresents, hsubject, hs₀, hpolicy, rfl, hcommand,
      hconfined⟩

/-- **Serving.** Whatever the request changes, it is granted. -/
theorem serveMcpRequest_ensures (hF : McpServes F deps T request) (s : ServerState) :
    (serveMcpRequest deps request : Proc ServerState (ServerInput ids) McpAnswer).Ensures F
      (fun _ _ => True) s := by
  have hidle : ∀ s, F.inv s → F.guarantee s s := fun s hinv => hF.granted s s hinv (.inl rfl)
  unfold serveMcpRequest
  split
  · exact fun _ _ _ => trivial
  intro s₁ _ hinv i _
  refine ⟨hidle s₁ hinv, ?_⟩
  show Proc.Ensures F _ (match verifyOAuthResourceRequest deps.tokens request.authorization
        (mcpRequirements deps.console) i.api.now with
      | .error error => pure (mcpChallengeResponse error (tokenSent request.authorization))
      | .ok access => serveAuthenticatedMcp deps request access) s₁
  cases hverify : verifyOAuthResourceRequest deps.tokens request.authorization
      (mcpRequirements deps.console) i.api.now with
  | error error => exact fun _ _ _ => trivial
  | ok access =>
    refine Proc.ensures_bind ((mcpPrincipalForAccess_ensures hF access s₁).mono ?_)
    intro result s₂ hresult
    split
    · exact fun _ _ _ => trivial
    · exact fun _ _ _ => trivial
    · exact fun _ _ _ => trivial
    · next principal =>
      obtain ⟨hsubject, policy, s₀, hs₀, hpolicy, rfl⟩ := hresult principal rfl
      refine Proc.ensures_bind ?_
      exact (toolCall_ensures hF ⟨_, hverify⟩ hsubject hs₀ hpolicy s₂).mono
        fun _ _ _ => fun _ _ _ => trivial

end mcp

end Umail
