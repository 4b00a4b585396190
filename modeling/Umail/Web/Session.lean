import Umail.Api.Requests
import Umail.Auth.Grants
import Umail.Framework.JsString
import Umail.Web.Clients

/-! # The console

  `withOperator` of `apps/server/src/web/session.ts` with the same-origin check
  of `auth/runtime-surface.ts`, and the routes of `web/pages/clients.ts`: the
  pages on which the operator gives a client access, changes it and revokes it.
-/

namespace Umail

open Lts Relational JsString

/-! ### Requests of a browser -/

structure WebRequest where
  method : String
  /-- The path and the query. -/
  url : String
  /-- `new URL(request.url).origin` -/
  requestOrigin : String
  secFetchSite : Option String
  origin : Option String
  /-- The user of the session that `getSession` finds for its cookies. -/
  session : Option String

/-- The part of `ApiDeps` that the console computes with. -/
structure ConsoleDeps where
  /-- `applicationUrl.origin` -/
  origin : String
  operatorId : String

def cookieMutationAllowed (request : WebRequest) (configuredOrigin : String) : Bool :=
  if request.secFetchSite = some "same-origin" then true
  else request.origin = some configuredOrigin || request.origin = some request.requestOrigin

/-- `encodeURIComponent` of a text. -/
def uriText (text : String) : List CodeUnit := text.toList.flatMap uriChar

def UMAIL_WEB_CLIENT_ID : String := "umail-web"

section console
variable [Unicode] {ids : IdNames}

/-- The answer of a console route. The pages are given by what they show. -/
inductive WebAnswer where
  | redirect (location : List CodeUnit)
  | failure (status : Nat) (message : String)
  /-- Status 500; the text is fixed. -/
  | serverError
  | clients (grants : List ClientGrant)
  | client (grant : ClientGrant)
  /-- The form with its error, status 400. -/
  | invalid (grant : ClientGrant) (field : PolicyField) (message : String)

def failureResponse : AuthFailure → WebAnswer
  | .notFound _ message => .failure 404 message
  | .unreadable => .failure 400 "The request could not be read."
  | .d1 _ => .serverError
  | .died _ => .serverError

/-- Runs a handler as the operator. A `POST` must come from this origin. -/
def withOperator (deps : ConsoleDeps) (request : WebRequest)
    (handler : Principal → AuthOperation ids WebAnswer) : Proc AuthDb (AuthInput ids) WebAnswer :=
  if request.method = "POST" && !cookieMutationAllowed request deps.origin then
    pure (.failure 403 "This form was sent from another site.")
  else
    match request.session with
    | none => pure (.redirect (ofString "/login?next=" ++ uriText request.url))
    | some userId =>
      if userId ≠ deps.operatorId then
        pure (.failure 403 "Only the AgentMail operator can use this page.")
      else do
        let result ← (handler (operatorPrincipal userId UMAIL_WEB_CLIENT_ID "AgentMail web")).run
        match result with
        | .ok answer => return answer
        | .error failure => return failureResponse failure

/-! ### The routes of the clients -/

variable (deps : ConsoleDeps)

def findGrant (clientId : String) : AuthOperation ids ClientGrant := do
  let grants ← listGrants deps.operatorId
  match grants.find? (·.clientId = clientId) with
  | some grant => return grant
  | none => authFail (.notFound "client_not_found"
      ("Client " ++ clientId ++ " was not found. It may have been revoked."))

def clientsRoute : AuthOperation ids WebAnswer :=
  return .clients (← listGrants deps.operatorId)

def clientRoute (clientId : String) : AuthOperation ids WebAnswer :=
  return .client (← findGrant deps clientId)

def saveClientRoute (clientId : String) (entries : List (String × String)) :
    AuthOperation ids WebAnswer := do
  let grant ← findGrant deps clientId
  match grant.consentId with
  | none => authFail (.notFound "client_not_found"
      ("Client " ++ clientId ++ " has no consent to configure."))
  | some consentId =>
    match saveClient entries with
    | none => authFail .unreadable
    | some (.invalid field message) => return .invalid grant field message
    | some (.ok policy) => do
      let _ ← setPolicy deps.operatorId consentId policy
      return .redirect (ofString "/clients/" ++ uriText clientId ++ ofString "?saved")

def revokeClientRoute (clientId : String) : AuthOperation ids WebAnswer := do
  revoke deps.operatorId clientId
  return .redirect (ofString "/clients?revoked")

/-! ### What the routes choose -/

variable {deps} {E : Interference AuthDb (AuthInput ids)}
  {Chooses : String → PrincipalPolicy → Prop}

/-- What the handler ensures, the route does. It runs for the operator only,
    and a `POST` from this origin only. -/
theorem withOperator_ensures {request : WebRequest}
    {handler : Principal → AuthOperation ids WebAnswer}
    (h : request.session = some deps.operatorId →
      (request.method = "POST" → cookieMutationAllowed request deps.origin = true) →
      ∀ principal, (handler principal).Ensures E fun _ => True) (db : AuthDb) :
    (withOperator deps request handler).Ensures E (fun _ _ => True) db := by
  unfold withOperator
  split
  · exact fun _ _ _ => trivial
  next hforeign =>
  split
  · exact fun _ _ _ => trivial
  next userId hsession =>
  split
  · exact fun _ _ _ => trivial
  next huser =>
  obtain rfl := not_not.mp huser
  refine Proc.ensures_bind ((h hsession (fun hpost => ?_) _ db).run (fun _ _ _ => ?_)
    fun _ _ _ => ?_)
  · simpa [hpost] using hforeign
  · exact fun _ _ _ => trivial
  · exact fun _ _ _ => trivial

/-- A listed consent belongs to the client it is listed for. -/
theorem AuthDb.Named.list {db : AuthDb} (h : db.Named ids) {operatorId : String}
    {grant : ClientGrant} (hgrant : grant ∈ db.list operatorId) {consentId : String}
    (hconsent : grant.consentId = some consentId) :
    (ids.consent consentId).1 = grant.clientId := by
  obtain ⟨row, hrow, rfl⟩ := List.mem_map.mp hgrant
  have hmem := List.mem_dedup.mp ((List.mem_insertionSort _).mp hrow)
  rcases List.mem_append.mp hmem with hmem | hmem
  · obtain ⟨c, hc, rfl⟩ := List.mem_map.mp hmem
    obtain rfl := Option.some.inj hconsent
    rw [h.consents c (Table.mem_select.mp hc).1]
  · obtain ⟨t, -, rfl⟩ := List.mem_map.mp hmem
    exact absurd hconsent (by simp)

theorem findGrant_ensures (hE : AuthServes E Chooses) (clientId : String) :
    (findGrant deps clientId).Ensures E fun grant =>
      ∀ consentId, grant.consentId = some consentId → (ids.consent consentId).1 = clientId := by
  refine auth_bind (auth_read hE.idle fun db hI => ?_)
  split
  · next grant hfind =>
    refine auth_pure fun consentId hconsent => ?_
    rw [(hE.named db hI).list (List.mem_of_find?_eq_some hfind) hconsent]
    simpa using List.find?_some hfind
  · exact auth_fail

theorem saveClientRoute_ensures (hE : AuthServes E Chooses) (clientId : String)
    {entries : List (String × String)}
    (h : ∀ policy, saveClient entries = some (.ok policy) → Chooses clientId policy) :
    (saveClientRoute deps clientId entries).Ensures E fun _ => True := by
  refine auth_bind ((findGrant_ensures hE clientId).mono fun grant hgrant => ?_)
  split
  · exact auth_fail
  next consentId hconsent =>
  split
  · exact auth_fail
  · exact auth_pure trivial
  · next policy hsave =>
    refine auth_bind ((setPolicy_ensures hE deps.operatorId ?_).mono fun _ _ => auth_pure trivial)
    rw [hgrant consentId hconsent]
    exact h policy hsave

theorem revokeClientRoute_ensures (hE : AuthServes E Chooses) (clientId : String) :
    (revokeClientRoute deps clientId).Ensures E fun _ => True :=
  auth_bind ((revoke_ensures hE deps.operatorId clientId).mono fun _ _ => auth_pure trivial)

theorem clientsRoute_ensures (hE : AuthServes E Chooses) :
    (clientsRoute deps : AuthOperation ids WebAnswer).Ensures E fun _ => True :=
  auth_bind (auth_read hE.idle fun _ _ => auth_pure trivial)

theorem clientRoute_ensures (hE : AuthServes E Chooses) (clientId : String) :
    (clientRoute deps clientId).Ensures E fun _ => True :=
  auth_bind ((findGrant_ensures hE clientId).mono fun _ _ => auth_pure trivial)

end console

end Umail
