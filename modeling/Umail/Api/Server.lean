import Umail.Api.Mcp

/-! # The server

  MCP requests, the pages of the console, the consent screen and deployments,
  interleaved with each other, with Better Auth and with the rest of the
  system, and cut off at any call. What a client does to the mail is allowed by
  a policy that the operator chose for it, and that was in force while the
  request ran.
-/

namespace Umail

open Lts Relational Json

section server
variable [Unicode] [DateTime] [Base64Url] {ids : IdNames}

/-! ### Requests -/

/-- A request to the auth database. -/
inductive AuthRequest where
  | clients (web : WebRequest)
  | client (web : WebRequest) (clientId : String)
  | saveClient (web : WebRequest) (clientId : String) (entries : List (String × String))
  | revokeClient (web : WebRequest) (clientId : String)
  /-- An accepted consent with the client of its signed query; `refused` when
      Better Auth answers with an error. -/
  | consent (clientId : Option String) (body : Data) (refused : Bool)

inductive AuthAnswer where
  | web (answer : WebAnswer)
  | badRequest (message : String)
  | answered
  | failed

/-- The hooks of `mcpPolicyPlugin` around the consent that Better Auth records. -/
def consentHooks (operatorId : String) (clientId : Option String) (body : Data) (refused : Bool) :
    Proc AuthDb (AuthInput ids) AuthAnswer :=
  match policyFromForm body with
  | .invalid _ message => pure (.badRequest message)
  | .ok policy =>
    if refused then pure .answered
    else do
      let result ← (saveConsentPolicy operatorId clientId policy).run
      match result with
      | .ok () => return .answered
      | .error _ => return .failed

/-- A route of `webRoutes` that the request reaches with this method. -/
def operatorRoute (deps : ConsoleDeps) (method : String) (web : WebRequest)
    (route : AuthOperation ids WebAnswer) : Proc AuthDb (AuthInput ids) AuthAnswer :=
  return .web (← withOperator deps { web with method } fun _ => route)

def AuthRequest.serve (deps : ConsoleDeps) : AuthRequest → Proc AuthDb (AuthInput ids) AuthAnswer
  | .clients web => operatorRoute deps "GET" web (clientsRoute deps)
  | .client web clientId => operatorRoute deps "GET" web (clientRoute deps clientId)
  | .saveClient web clientId entries =>
    operatorRoute deps "POST" web (saveClientRoute deps clientId entries)
  | .revokeClient web clientId =>
    operatorRoute deps "POST" web (revokeClientRoute deps clientId)
  | .consent clientId body refused => consentHooks deps.operatorId clientId body refused

inductive ServerRequest where
  | mcp (request : McpRequest)
  | auth (request : AuthRequest)
  | provision (request : ProvisionRequest)

inductive ServerAnswer where
  | mcp (answer : McpAnswer)
  | auth (answer : AuthAnswer)
  | provision (result : Except AuthFailure String)

def ServerRequest.serve (deps : ServerDeps) :
    ServerRequest → Proc ServerState (ServerInput ids) ServerAnswer
  | .mcp request => return .mcp (← serveMcpRequest deps request)
  | .auth request => return .auth (← onAuth (request.serve deps.console))
  | .provision request =>
    return .provision (← onAuth (provisionAuth deps.passwords request).run)

/-! ### The environment -/

/-- Better Auth rewrites its own tables, but for the users and their accounts:
    the paths that write those are disabled. A consent belongs to the client
    and the user that its id stands for. -/
inductive BetterAuthEvent (ids : IdNames) where
  | consents (rows : { rows : Table OauthConsentRow //
      ∀ c ∈ rows, ids.consent c.id = (c.clientId, c.userId) })
  | tokens (access : Table OauthAccessTokenRow) (refresh : Table OauthRefreshTokenRow)
  | sessions (session : Table SessionRow) (verification : Table VerificationRow)
      (deviceCode : Table DeviceCodeRow)
  | registrations (client : Table OauthClientRow) (resource : Table OauthResourceRow)
      (clientResource : Table OauthClientResourceRow)

def BetterAuthEvent.apply (db : AuthDb) : BetterAuthEvent ids → AuthDb
  | .consents rows => db.withConsents rows
  | .tokens access refresh => { db with oauthAccessToken := access, oauthRefreshToken := refresh }
  | .sessions session verification deviceCode => { db with session, verification, deviceCode }
  | .registrations client resource clientResource =>
    { db with oauthClient := client, oauthResource := resource
              oauthClientResource := clientResource }

inductive ServerEvent (ids : IdNames) where
  | store (c : IssuedCommand)
  | betterAuth (event : BetterAuthEvent ids)

def ServerEvent.apply (s : ServerState) : ServerEvent ids → ServerState
  | .store c => { s with store := s.store.exec c }
  | .betterAuth event => { s with auth := event.apply s.auth }

/-- No grants, and no mail yet. -/
def ServerState.Fresh (s : ServerState) : Prop :=
  s.auth.oauthConsent = .empty ∧ s.store = .empty

variable (ids) in
/-- The server with both databases behind it. -/
def server (deps : ServerDeps) :
    Program ServerState (Serving ServerRequest ServerState (ServerInput ids) ServerAnswer)
      (ServerEvent ids) ServerRequest (ServerInput ids) :=
  Lts.serve ServerState.Fresh (fun s e => some (e.apply s))
    (fun s i => i.api.fresh deps.api s.store) (ServerRequest.serve deps)

variable (ids) in
abbrev ServerPool :=
  Pool ServerState (Serving ServerRequest ServerState (ServerInput ids) ServerAnswer)

/-! ### What each request does -/

/-- The request chooses a policy for the client: it comes from a form that the
    operator posts from the console, or from the consent screen. -/
def AuthRequest.Chooses (deps : ConsoleDeps) (r : AuthRequest) (clientId : String)
    (policy : PrincipalPolicy) : Prop :=
  match r with
  | .saveClient web id entries => id = clientId ∧ Umail.saveClient entries = some (.ok policy) ∧
      web.session = some deps.operatorId ∧ cookieMutationAllowed web deps.origin = true
  | .consent id body _ => id = some clientId ∧ policyFromForm body = .ok policy
  | .clients _ => False
  | .client _ _ => False
  | .revokeClient _ _ => False

def ServerRequest.Chooses (deps : ServerDeps) (r : ServerRequest) (clientId : String)
    (policy : PrincipalPolicy) : Prop :=
  match r with
  | .mcp _ => False
  | .auth request => request.Chooses deps.console clientId policy
  | .provision _ => False

/-- In view of the states `T`. -/
def ServerRequest.Granted (ids : IdNames) (deps : ServerDeps) (T : ServerState → Prop)
    (r : ServerRequest) (s s' : ServerState) : Prop :=
  match r with
  | .mcp request => request.Granted deps T s s'
  | .auth request => s'.store = s.store ∧ s.auth.Keeps ids (request.Chooses deps.console) s'.auth
  | .provision _ => s'.store = s.store ∧ s.auth.Keeps ids (fun _ _ => False) s'.auth

variable (ids) in
/-- What the others may do while a request runs, and what it may do itself. -/
def ServerRequest.interference (deps : ServerDeps) (T : ServerState → Prop) (r : ServerRequest) :
    Interference ServerState (ServerInput ids) where
  inv s := s.auth.Named ids ∧ s.store.Issued ∧ T s
  rely s s' := s.store.Evolves s'.store ∧ s.auth.Identities s'.auth
  guarantee := r.Granted ids deps T
  accepts s i := i.api.fresh deps.api s.store = true
  refl s := ⟨.refl s.store, .refl s.auth⟩
  trans _ _ _ h h' := ⟨h.1.trans h'.1, h.2.trans h'.2⟩

/-- What an answer says of the state. -/
def ServerRequest.Answered (r : ServerRequest) (answer : ServerAnswer) (s : ServerState) : Prop :=
  ∀ request operatorId, r = .provision request → answer = .provision (.ok operatorId) →
    s.auth.Operator request operatorId

variable {deps : ServerDeps} {T : ServerState → Prop} {r : ServerRequest} {s s' : ServerState}

omit [DateTime] [Base64Url] in
/-- A request never makes a consent. -/
theorem ServerRequest.Granted.keeps (h : r.Granted ids deps T s s') :
    s.auth.Keeps ids (r.Chooses deps) s'.auth := by
  cases r with
  | mcp request =>
    rcases h with rfl | ⟨_, _, _, -, -, -, -, hauth, -⟩
    · exact .refl _
    · rw [hauth]
      exact .refl _
  | auth request => exact h.2
  | provision request => exact h.2

omit [DateTime] [Base64Url] in
theorem ServerRequest.Granted.store (h : r.Granted ids deps T s s') :
    s'.store = s.store ∨ ∃ c : Command, c.Issued ∧ s'.store = s.store.exec c := by
  cases r with
  | mcp request =>
    rcases h with rfl | ⟨_, _, _, -, -, -, -, -, hcommand, -⟩
    · exact .inl rfl
    · exact .inr hcommand
  | auth request => exact .inl h.1
  | provision request => exact .inl h.1

/-! ### The requests are served -/

section serves
variable {Chooses : String → PrincipalPolicy → Prop}

/-- The interference of a request on the auth database alone. -/
def authInterference (ids : IdNames) (Chooses : String → PrincipalPolicy → Prop) :
    Interference AuthDb (AuthInput ids) where
  inv := AuthDb.Named ids
  rely := AuthDb.Identities
  guarantee := AuthDb.Keeps ids Chooses
  accepts _ _ := True
  refl := .refl
  trans _ _ _ := .trans

omit [DateTime] [Base64Url] in
theorem authServes : AuthServes (authInterference ids Chooses) Chooses where
  named _ h := h
  keeps _ _ _ h := h
  idle := AuthDb.Keeps.refl
  rely _ _ h := h
  guarantee _ _ _ h := h.identities

omit [DateTime] [Base64Url] in
theorem consentHooks_ensures {operatorId : String} {clientId : Option String} {body : Data}
    {refused : Bool}
    (h : ∀ c policy, clientId = some c → policyFromForm body = .ok policy → Chooses c policy)
    (db : AuthDb) :
    (consentHooks operatorId clientId body refused).Ensures (authInterference ids Chooses)
      (fun _ _ => True) db := by
  unfold consentHooks
  split
  · exact fun _ _ _ => trivial
  next policy hpolicy =>
  split
  · exact fun _ _ _ => trivial
  refine Proc.ensures_bind ((saveConsentPolicy_ensures authServes operatorId
    (fun c hc => h c policy hc hpolicy) db).run (fun _ _ _ => ?_) fun _ _ _ => ?_)
  · exact fun _ _ _ => trivial
  · exact fun _ _ _ => trivial

omit [DateTime] [Base64Url] in
/-- A route that ensures nothing but its guarantee. -/
theorem operatorRoute_ensures {console : ConsoleDeps} {method : String} {web : WebRequest}
    {route : AuthOperation ids WebAnswer}
    (h : web.session = some console.operatorId →
      (method = "POST" → cookieMutationAllowed web console.origin = true) →
      route.Ensures (authInterference ids Chooses) fun _ => True) (db : AuthDb) :
    (operatorRoute console method web route).Ensures (authInterference ids Chooses)
      (fun _ _ => True) db := by
  have hroute : (withOperator console { web with method } fun _ => route).Ensures
      (authInterference ids Chooses) (fun _ _ => True) db := by
    refine withOperator_ensures ?_ db
    exact fun hsession hsame _ => h hsession hsame
  exact Proc.ensures_bind (hroute.mono fun _ _ _ _ _ _ => trivial)

omit [DateTime] [Base64Url] in
theorem AuthRequest.serve_ensures (console : ConsoleDeps) (request : AuthRequest) (db : AuthDb) :
    (request.serve console).Ensures (authInterference ids (request.Chooses console))
      (fun _ _ => True) db := by
  cases request with
  | clients web => exact operatorRoute_ensures (fun _ _ => clientsRoute_ensures authServes) db
  | client web clientId =>
    exact operatorRoute_ensures (fun _ _ => clientRoute_ensures authServes clientId) db
  | saveClient web clientId entries =>
    refine operatorRoute_ensures (fun hsession hsame => ?_) db
    exact saveClientRoute_ensures authServes clientId fun policy hsave =>
      ⟨rfl, hsave, hsession, hsame rfl⟩
  | revokeClient web clientId =>
    exact operatorRoute_ensures (fun _ _ => revokeClientRoute_ensures authServes clientId) db
  | consent clientId body refused =>
    exact consentHooks_ensures (fun c policy hc hpolicy => ⟨hc, hpolicy⟩) db

end serves

theorem ServerRequest.serve_ensures (r : ServerRequest) (s : ServerState) :
    (r.serve deps).Ensures (r.interference ids deps T) r.Answered s := by
  cases r with
  | mcp request =>
    have hmcp : McpServes ((ServerRequest.mcp request).interference ids deps T) deps T request := {
      inv := fun _ h => h.2
      rely := fun _ _ h => h.1
      accepts := fun _ _ h => h
      granted := fun _ _ _ h => h }
    refine Proc.ensures_bind ((serveMcpRequest_ensures hmcp s).mono fun _ _ _ => ?_)
    exact fun _ _ _ _ _ h => absurd h (by simp)
  | auth request =>
    have hfocus : (onAuth (request.serve deps.console)).Ensures
        ((ServerRequest.auth request).interference ids deps T) (fun _ _ => True) s := by
      refine Proc.Ensures.focus (E := authInterference ids (request.Chooses deps.console))
        (fun _ _ => rfl) (fun _ _ hrely => ?_) (fun _ h => ?_) (fun _ _ _ => trivial)
        (fun _ _ _ hkeeps => ?_) (request.serve_ensures deps.console s.auth)
      · exact hrely.2
      · exact h.1
      · exact ⟨rfl, hkeeps⟩
    refine Proc.ensures_bind (hfocus.mono fun _ _ _ => ?_)
    exact fun _ _ _ _ _ h => absurd h (by simp)
  | provision request =>
    have hfocus : (onAuth (provisionAuth deps.passwords request).run).Ensures
        ((ServerRequest.provision request).interference ids deps T)
        (fun result s => ∀ operatorId, result = .ok operatorId →
          s.auth.Operator request operatorId) s := by
      refine (Proc.Ensures.focus (E := authInterference ids fun _ _ => False)
        (fun _ _ => rfl) (fun _ _ hrely => ?_) (fun _ h => ?_) (fun _ _ _ => trivial)
        (fun _ _ _ hkeeps => ?_)
        (provisionAuth_yields authServes deps.passwords request s.auth)).mono fun _ _ h => h.1
      · exact hrely.2
      · exact h.1
      · exact ⟨rfl, hkeeps⟩
    refine Proc.ensures_bind (hfocus.mono fun result s₁ hresult => ?_)
    intro s₂ hs₂ _ request' operatorId hrequest hanswer
    obtain rfl := ServerRequest.provision.inj hrequest
    exact (hresult operatorId (ServerAnswer.provision.inj hanswer)).stays hs₂.2

/-- What holds in every state. -/
def ServerState.Sound (ids : IdNames) (s : ServerState) : Prop :=
  s.auth.Named ids ∧ s.store.Issued

omit [Unicode] [DateTime] [Base64Url] in
theorem BetterAuthEvent.apply_named {db : AuthDb} (h : db.Named ids) (e : BetterAuthEvent ids) :
    (e.apply db).Named ids := by
  cases e with
  | consents rows => exact ⟨rows.2, fun p hp => h.policies p (AuthDb.mem_withConsents hp)⟩
  | tokens access refresh => exact ⟨h.consents, h.policies⟩
  | sessions session verification deviceCode => exact ⟨h.consents, h.policies⟩
  | registrations client resource clientResource => exact ⟨h.consents, h.policies⟩

omit [Unicode] [DateTime] [Base64Url] in
/-- Better Auth writes no user and no account. -/
theorem BetterAuthEvent.apply_accounts (db : AuthDb) (e : BetterAuthEvent ids) :
    (e.apply db).user = db.user ∧ (e.apply db).account = db.account := by
  cases e with
  | consents rows => exact ⟨rfl, rfl⟩
  | tokens access refresh => exact ⟨rfl, rfl⟩
  | sessions session verification deviceCode => exact ⟨rfl, rfl⟩
  | registrations client resource clientResource => exact ⟨rfl, rfl⟩

omit [Unicode] [DateTime] [Base64Url] in
theorem BetterAuthEvent.apply_identities (db : AuthDb) (e : BetterAuthEvent ids) :
    db.Identities (e.apply db) := by
  obtain ⟨huser, haccount⟩ := e.apply_accounts db
  exact ⟨fun u hu => ⟨u, huser ▸ hu, rfl, rfl⟩, fun a ha =>
    ⟨a, haccount ▸ ha, rfl, rfl⟩⟩

variable (ids) in
theorem server_served (deps : ServerDeps) : Served ServerState.Fresh
    (fun s (e : ServerEvent ids) => some (e.apply s)) (fun s i => i.api.fresh deps.api s.store)
    (ServerRequest.serve deps) (ServerState.Sound ids)
    (fun r => r.interference ids deps fun _ => True) ServerRequest.Answered where
  init s h := by
    obtain ⟨hconsents, hstore⟩ := h
    refine ⟨⟨fun c hc => ?_, fun p hp => ?_⟩, hstore ▸ ⟨[], .nil _⟩⟩
    · rw [hconsents] at hc
      exact absurd hc Table.mem_empty
    · obtain ⟨c, hc, -⟩ := s.auth.references p hp
      rw [hconsents] at hc
      exact absurd hc Table.mem_empty
  env s e s' hI h := by
    obtain rfl := Option.some.inj h
    cases e with
    | store c =>
      exact ⟨⟨hI.1, hI.2.exec c.2⟩, fun _ =>
        ⟨(exec_step s.store c).evolves, .refl s.auth⟩⟩
    | betterAuth event =>
      refine ⟨⟨event.apply_named hI.1, hI.2⟩, fun _ => ⟨.refl s.store, ?_⟩⟩
      exact event.apply_identities s.auth
  call r s s' hI h := by
    have hstore := ServerRequest.Granted.store h
    refine ⟨⟨(ServerRequest.Granted.keeps h).named hI.1, ?_⟩, fun _ => ?_⟩
    · rcases hstore with heq | ⟨c, hc, heq⟩
      · rw [heq]
        exact hI.2
      · rw [heq]
        exact hI.2.exec hc
    · refine ⟨?_, (ServerRequest.Granted.keeps h).identities⟩
      rcases hstore with heq | ⟨c, hc, heq⟩
      · rw [heq]
        exact .refl _
      · rw [heq]
        exact (exec_step s.store c).evolves
  inv _ _ h := ⟨h.1, h.2, trivial⟩
  accepts _ _ _ _ h := h
  body r s _ := r.serve_ensures s

/-! ### The policies in force -/

variable {w₀ w w' w'' : ServerPool ids}
    {ls : List (PoolLabel (ServerEvent ids) ServerRequest (ServerInput ids))}
  {clientId : String}

omit [DateTime] [Base64Url] in
/-- A policy in force is stored for a consent of the client. -/
theorem AuthDb.Named.mcpGrant {db : AuthDb} (h : db.Named ids) {operatorId : String}
    {policy : PrincipalPolicy} (hgrant : db.mcpGrant operatorId clientId = .policy policy) :
    ∃ p ∈ db.mcpPolicy, storedPolicy p.policy = some policy ∧
      (ids.consent p.consentId).1 = clientId := by
  unfold AuthDb.mcpGrant at hgrant
  split at hgrant
  · exact absurd hgrant (by simp)
  next c hconsent =>
  split at hgrant
  · exact absurd hgrant (by simp)
  next stored hstored =>
  obtain rfl := McpGrant.policy.inj hgrant
  obtain ⟨text, htext, hdecoded⟩ := Option.bind_eq_some_iff.mp hstored
  obtain ⟨p, hp, rfl⟩ := Option.map_eq_some_iff.mp htext
  have hnames : p.consentId = c.id := by simpa using Table.find?_prop hp
  exact ⟨p, Table.find?_mem hp, hdecoded, hnames ▸ h.consentOf hconsent⟩

/-- What a request that starts in a run does is granted by what the run passes. -/
theorem started_granted (hw : (server ids deps).machine.Reachable w)
    (hrun : (server ids deps).machine.Run w ls w') {pid : Nat} (hfree : w.procs pid = none)
    {p : Serving ServerRequest ServerState (ServerInput ids) ServerAnswer}
    (hp : w'.procs pid = some p) {i : ServerInput ids}
    (hstep : (server ids deps).machine.step w' (.step pid i) = some w'') :
    p.request.Granted ids deps ((server ids deps).Passes w ls) w'.shared w''.shared := by
  have hserved := server_served ids deps
  have hw' := (hserved.reachable (hrun.reachable hw)).1
  have hensures := hserved.during (T := (server ids deps).Passes w ls)
    (F := fun r => r.interference ids deps ((server ids deps).Passes w ls))
    (R := ServerRequest.Answered) hrun hw (fun _ h => h) (fun _ _ _ h => h)
    (fun _ _ hI hT => ⟨hI.1, hI.2, hT⟩) (fun _ _ _ _ h => h) (fun r s _ _ => r.serve_ensures s)
    (fun q hq => absurd (hfree.symm.trans hq) (by simp)) p hp
  refine Served.pool_step_ensures (F := p.request.interference ids deps
    ((server ids deps).Passes w ls)) hp ⟨hw'.1, hw'.2, .end_ hrun⟩
      (fun _ h => ?_) hensures hstep
  exact h

/-- The operator has given the client no consent. -/
def ServerState.Revoked (deps : ServerDeps) (clientId : String) (s : ServerState) : Prop :=
  ∀ c ∈ s.auth.oauthConsent,
    ¬ (c.clientId = clientId ∧ c.userId = some deps.console.operatorId)

/-- The operator gives the client no consent in the run. -/
def NoConsent (deps : ServerDeps) (clientId : String)
    (ls : List (PoolLabel (ServerEvent ids) ServerRequest (ServerInput ids))) : Prop :=
  ∀ rows, .env (.betterAuth (.consents rows)) ∈ ls → ∀ c ∈ rows.1,
    ¬ (c.clientId = clientId ∧ c.userId = some deps.console.operatorId)

/-- Without a new consent, what is revoked stays revoked. -/
theorem stays_revoked (hw : (server ids deps).machine.Reachable w)
    (hrun : (server ids deps).machine.Run w ls w') (hls : NoConsent deps clientId ls)
    (hrevoked : w.shared.Revoked deps clientId) : w'.shared.Revoked deps clientId := by
  have hserved := server_served ids deps
  refine (hserved.run_invariant hw hrun (R := fun _ => True) (fun _ _ _ => trivial) ?_ ?_
    (fun _ _ _ => trivial) hrevoked).1
  · intro e s s' he _ hP hs
    obtain rfl := Option.some.inj hs
    cases e with
    | store c => exact hP
    | betterAuth event =>
      cases event with
      | consents rows => exact hls rows he
      | tokens access refresh => exact hP
      | sessions session verification deviceCode => exact hP
      | registrations client resource clientResource => exact hP
  · intro r s s' _ _ hP hgranted c hc
    exact hP c ((ServerRequest.Granted.keeps hgranted).consents c hc)

/-- No request of a client without a grant changes anything. -/
theorem revoked_starts (hw : (server ids deps).machine.Reachable w)
    (hrevoked : w.shared.Revoked deps clientId)
    (hrun : (server ids deps).machine.Run w ls w') (hls : NoConsent deps clientId ls) {pid : Nat}
    {request : McpRequest} {rest : Proc ServerState (ServerInput ids) ServerAnswer}
    {i : ServerInput ids} (hfree : w.procs pid = none)
    (hp : w'.procs pid = some { request := .mcp request, rest })
    (htoken : ∀ access, request.Presents deps access → access.clientId = clientId)
    (hstep : (server ids deps).machine.step w' (.step pid i) = some w'') :
    w''.shared = w'.shared := by
  rcases started_granted hw hrun hfree hp hstep with heq |
    ⟨access, policy, s, hpresents, -, ⟨ls₁, ls₂, w₁, rfl, hrun₁, rfl⟩, hpolicy, -⟩
  · exact heq
  · -- in every state that the run passes there is no grant
    have hls₁ : NoConsent deps clientId ls₁ := fun rows hmem =>
      hls rows (List.mem_append_left _ hmem)
    have hnone := AuthDb.mcpGrant_none (stays_revoked hw hrun₁ hls₁ hrevoked)
    rw [htoken access hpresents, hnone] at hpolicy
    exact absurd hpolicy (by simp)

/-- **Revoking is final.** Once the consent of a client is gone, and until the
    operator gives a new one, the client has no grant, whatever is in flight,
    and no request that starts with its token changes anything. -/
theorem revoking_is_final (hw : (server ids deps).machine.Reachable w)
    (hrevoked : w.shared.Revoked deps clientId)
    (hrun : (server ids deps).machine.Run w ls w') (hls : NoConsent deps clientId ls) :
    w'.shared.auth.mcpGrant deps.console.operatorId clientId = .none ∧
    ∀ pid request rest i w'', w.procs pid = none →
      w'.procs pid = some { request := .mcp request, rest } →
      (∀ access, request.Presents deps access → access.clientId = clientId) →
      (server ids deps).machine.step w' (.step pid i) = some w'' → w''.shared = w'.shared := by
  refine ⟨AuthDb.mcpGrant_none (stays_revoked hw hrun hls hrevoked), ?_⟩
  intro pid request rest i w'' hfree hp htoken hstep
  exact revoked_starts hw hrevoked hrun hls hfree hp htoken hstep

/-! ### Deploying -/

/-- **One operator.** Deployments for one email agree on the operator, however
    they overlap and wherever others were cut off. -/
theorem one_operator (hw : (server ids deps).machine.Reachable w)
    (hrun : (server ids deps).machine.Run w ls w') {pid pid' : Nat}
    {request request' : ProvisionRequest} {operatorId operatorId' : String}
    (hp : w.procs pid =
      some { request := .provision request, rest := .ret (.provision (.ok operatorId)) })
    (hp' : w'.procs pid' =
      some { request := .provision request', rest := .ret (.provision (.ok operatorId')) })
    (hsame : request.lookupEmail = request'.lookupEmail) : operatorId = operatorId' := by
  have hserved := server_served ids deps
  have hoperator : w.shared.auth.Operator request operatorId :=
    (hserved.reachable hw).2 pid _ _ hp rfl request operatorId rfl rfl
  have hoperator' : w'.shared.auth.Operator request' operatorId' :=
    (hserved.reachable (hrun.reachable hw)).2 pid' _ _ hp' rfl request' operatorId' rfl rfl
  -- the user of the first deployment is still there
  have hlater := (hserved.run_rely hw hrun (.provision request)).2
  exact (hoperator.stays hlater).unique hoperator' hsame

/-- **A new password ends all access.** Where the password of an account
    changes in a run, the run passes a state in which its user has no session,
    no token and no consent. From there on a client has a grant, and its
    requests change something, only when the operator consents again. -/
theorem new_password_ends_access (hw : (server ids deps).machine.Reachable w)
    (hrun : (server ids deps).machine.Run w ls w') {a a' : CredentialAccountRow}
    (ha : a ∈ w.shared.auth.account) (ha' : a' ∈ w'.shared.auth.account) (hid : a'.id = a.id)
    (hpassword : a'.password ≠ a.password) :
    ∃ ls₁ ls₂ w₁, ls = ls₁ ++ ls₂ ∧ (server ids deps).machine.Run w ls₁ w₁ ∧
      (server ids deps).machine.Run w₁ ls₂ w' ∧ w₁.shared.auth.LoggedOut a.userId ∧
      ∀ clientId, a.userId = deps.console.operatorId → NoConsent deps clientId ls₂ →
        w'.shared.auth.mcpGrant deps.console.operatorId clientId = .none ∧
        ∀ pid request rest i w'', w₁.procs pid = none →
          w'.procs pid = some { request := .mcp request, rest } →
          (∀ access, request.Presents deps access → access.clientId = clientId) →
          (server ids deps).machine.step w' (.step pid i) = some w'' →
            w''.shared = w'.shared := by
  have hserved := server_served ids deps
  let Unchanged : ServerState → Prop := fun s =>
    ∃ b ∈ s.auth.account, b.id = a.id ∧ b.userId = a.userId ∧ b.password = a.password
  have hbroken := hserved.kept_or_broken hw hrun (P := Unchanged)
    (T := fun s => s.auth.LoggedOut a.userId) ?_ ?_ ⟨a, ha, rfl, rfl, rfl⟩
  · rcases hbroken with ⟨b, hb, hidb, -, hsame⟩ |
      ⟨ls₁, ls₂, w₁, rfl, hrun₁, hrun₂, hout⟩
    · obtain rfl := w'.shared.auth.account.eq_of_clash ha' hb (hid.trans hidb.symm)
      exact absurd hsame hpassword
    · refine ⟨ls₁, ls₂, w₁, rfl, hrun₁, hrun₂, hout, fun clientId huser hls => ?_⟩
      have hw₁ := hrun₁.reachable hw
      have hrevoked : w₁.shared.Revoked deps clientId := fun c hc hgiven =>
        hout.consents c hc (huser ▸ hgiven.2)
      refine ⟨AuthDb.mcpGrant_none (stays_revoked hw₁ hrun₂ hls hrevoked), ?_⟩
      intro pid request rest i w'' hfree hp htoken hstep
      exact revoked_starts hw₁ hrevoked hrun₂ hls hfree hp htoken hstep
  · intro e s s' _ hP he
    obtain rfl := Option.some.inj he
    cases e with
    | store c => exact .inl hP
    | betterAuth event =>
      obtain ⟨b, hb, hkept⟩ := hP
      exact .inl ⟨b, (event.apply_accounts s.auth).2 ▸ hb, hkept⟩
  · rintro r s s' _ ⟨b, hb, hidb, huserb, hpasswordb⟩ hgranted
    obtain ⟨b', hb', hid', huser', hkept⟩ :=
      (ServerRequest.Granted.keeps hgranted).accounts b hb
    rcases hkept with hkept | hout
    · exact .inl ⟨b', hb', hid'.trans hidb, huser'.trans huserb, hkept.trans hpasswordb⟩
    · exact .inr (huserb ▸ hout)

end server

/-! ### A sample run -/

namespace Sample

def tokenPayload : Data := .object
  [("sub", .string "operator"), ("client_id", .string "client-1"),
    ("scope", .string "umail:access"), ("aud", .string "https://mail.example.com/mcp"),
    ("umail_operator", .bool true)]

def serverDeps : ServerDeps where
  api := apiPorts
  console := { origin := "https://mail.example.com", operatorId := "operator" }
  tokens :=
    { parseAccessTokenAuthorization := fun header =>
        if header = some "Bearer token-1" then some { scheme := "Bearer", token := "token-1" }
        else none
      verifyJwsAccessToken := fun token options _ =>
        if token = "token-1" && options.audience = "https://mail.example.com/mcp" then
          some tokenPayload
        else none }
  passwords := samplePasswords

def serverInput (n : Nat) : ServerInput serverNames where
  auth := deployInput n
  api := apiInput issuedIds

def serverInputs (n : Nat) : List (ServerInput serverNames) := (List.range n).map serverInput

def accepted (s : ServerState) (i : ServerInput serverNames) : Bool :=
  i.api.fresh serverDeps.api s.store

def acceptConsent : ServerRequest :=
  .auth (.consent (some "client-1")
    (.object [("mailboxes", .string "all"), ("sendMode", .string "allow")]) false)

def sendMessage : McpRequest where
  method := "POST"
  authorization := some "Bearer token-1"
  call := .umail_send_message toolInput

def revokeClient : ServerRequest :=
  .auth (.revokeClient
    { method := "POST", url := "/clients/client-1/revoke"
      requestOrigin := "https://mail.example.com", secFetchSite := some "same-origin"
      origin := none, session := some "operator" } "client-1")

def givenConsents : Table OauthConsentRow :=
  ⟨[{ id := "consent-1", clientId := "client-1", userId := some "operator" }],
    List.pairwise_singleton _ _⟩

/-- Better Auth records the consent. -/
def consentGiven : ServerEvent serverNames :=
  .betterAuth (.consents ⟨givenConsents, fun c hc => by
    obtain rfl := List.mem_singleton.mp hc
    rfl⟩)

def deploy (password : String) : ServerRequest := .provision (provisionRequest password)

/-- The operator that a deployment has returned. -/
def operatorReturned : Proc ServerState (ServerInput serverNames) ServerAnswer → Option String
  | .ret (.provision (.ok operatorId)) => some operatorId
  | .ret (.provision (.error _)) => none
  | .ret (.mcp _) => none
  | .ret (.auth _) => none
  | .call _ _ => none

theorem operatorReturned_eq {rest : Proc ServerState (ServerInput serverNames) ServerAnswer}
    {operatorId : String} (h : operatorReturned rest = some operatorId) :
    rest = .ret (.provision (.ok operatorId)) := by
  unfold operatorReturned at h
  split at h
  · obtain rfl := Option.some.inj h
    rfl
  all_goals exact absurd h (by simp)

def emptyServer : ServerPool serverNames where
  shared := { auth := .empty, store := .empty }
  procs _ := none

/-- The pool with a mailbox and a consent. -/
def consentedServer : ServerPool serverNames where
  shared := { auth := AuthDb.empty.withConsents givenConsents, store := mailboxStore }
  procs _ := none

/-- The state after a request that runs on its own. -/
def servedState (r : ServerRequest) (n : Nat) (s : ServerState) : ServerState :=
  (((r.serve serverDeps).upTo accepted s (serverInputs n)).map (·.2)).getD s

def grantedState : ServerState := servedState acceptConsent 3 consentedServer.shared

def revokedState : ServerState := servedState revokeClient 1 grantedState

/-- The state after the first deployment. -/
def deployedState : ServerState := servedState (deploy "first") 22 emptyServer.shared

theorem emptyServer_init : (server serverNames serverDeps).machine.init emptyServer :=
  ⟨⟨rfl, rfl⟩, fun _ => rfl⟩

/-- A request that starts under a free id and makes calls on its own. -/
theorem served_alone {w : ServerPool serverNames} {pid : Nat} (hfree : w.procs pid = none)
    (r : ServerRequest) (n : Nat)
    (h : ((r.serve serverDeps).upTo accepted w.shared (serverInputs n)).isSome = true) :
    ∃ (w' : ServerPool serverNames) (ls : _) (rest : _),
      (server serverNames serverDeps).machine.Run w (.start pid r :: ls) w' ∧
      w'.shared = servedState r n w.shared ∧ w'.procs pid = some { request := r, rest } ∧
      (∀ q, q ≠ pid → w'.procs q = w.procs q) ∧ (∀ l ∈ ls, ∃ i, l = .step pid i) ∧
      (r.serve serverDeps).upTo accepted w.shared (serverInputs n) = some (rest, w'.shared) := by
  obtain ⟨⟨rest, s⟩, hrest⟩ := Option.isSome_iff_exists.mp h
  let started : ServerPool serverNames :=
    { w with procs := w.set pid (some { request := r, rest := r.serve serverDeps }) }
  have hstarted : started.procs pid = some { request := r, rest := r.serve serverDeps } := by
    simp [started, Pool.set]
  obtain ⟨w', hrun, rfl, hp, hothers⟩ := serve_upTo hstarted hrest
  refine ⟨w', _, rest, .cons _ _ (serve_start hfree r) hrun, ?_, hp, fun q hq => ?_, ?_, hrest⟩
  · simp [servedState, hrest]
  · rw [hothers q hq]
    simp [started, Pool.set, hq]
  · intro l hl
    obtain ⟨i, -, rfl⟩ := List.mem_map.mp hl
    exact ⟨i, rfl⟩

/-- The operator consents, and the client has a policy. -/
theorem server_granted : ∃ (w : ServerPool serverNames) (ls : _),
    (server serverNames serverDeps).machine.Run emptyServer ls w ∧ w.shared = grantedState ∧
      ∀ pid, pid ≠ 0 → w.procs pid = none := by
  have hdone : ((acceptConsent.serve serverDeps).upTo accepted consentedServer.shared
      (serverInputs 3)).isSome = true := by decide +kernel
  have hnone : consentedServer.procs 0 = none := rfl
  obtain ⟨w, ls, rest, hrun, hshared, -, hothers, -, -⟩ :=
    served_alone hnone acceptConsent 3 hdone
  refine ⟨w, _, .cons (.env (.store
    ⟨.createAddress "mailbox-1" "agent" "example.com" none 10 true, trivial⟩)) _ rfl
    (.cons (.env consentGiven) _ rfl hrun), hshared, fun pid hpid => hothers pid hpid⟩

end Sample

section sample
open Sample

theorem revoking_is_final_refused : ∃ w w' : ServerPool serverNames,
    w.shared.auth.mcpGrant "operator" "client-1" = .none ∧ w'.shared = w.shared := by
  obtain ⟨w, ls, hrun, hshared, hfree⟩ := server_granted
  have hrevokes : ((revokeClient.serve serverDeps).upTo accepted grantedState
      (serverInputs 1)).isSome = true := by decide +kernel
  obtain ⟨w₁, ls₁, -, hrun₁, hshared₁, -, hothers, -, -⟩ :=
    served_alone (hfree 1 (by decide)) revokeClient 1 (hshared ▸ hrevokes)
  have hgone : w₁.shared = revokedState := by rw [hshared₁, hshared]; rfl
  have hrevoked : w₁.shared.Revoked serverDeps "client-1" := by
    have hempty : revokedState.auth.oauthConsent.rows = [] := by decide +kernel
    intro c hc
    rw [hgone, ← Table.mem_rows, hempty] at hc
    exact absurd hc List.not_mem_nil
  have hfree₂ : w₁.procs 2 = none := (hothers 2 (by decide)).trans (hfree 2 (by decide))
  have htoken : ∀ access, sendMessage.Presents serverDeps access → access.clientId =
      "client-1" := by
    rintro access ⟨now, hverify⟩
    have hnow : verifyOAuthResourceRequest serverDeps.tokens sendMessage.authorization
        (mcpRequirements serverDeps.console) 0 = .ok access := hverify
    have hclient : (verifyOAuthResourceRequest serverDeps.tokens sendMessage.authorization
        (mcpRequirements serverDeps.console) 0).toOption.all (·.clientId = "client-1") = true := by
      decide +kernel
    rw [hnow] at hclient
    exact of_decide_eq_true hclient
  -- the client tries again, and reads the grant that is gone
  have htries : (((ServerRequest.mcp sendMessage).serve serverDeps).upTo accepted revokedState
      (serverInputs 1)).any (fun r => (r.1.upTo accepted r.2 (serverInputs 1)).isSome) = true := by
    decide +kernel
  obtain ⟨⟨rest, s⟩, hrest, hlast⟩ := (Option.any_eq_true _ _).mp htries
  obtain ⟨w₂, ls₂, rest₂, hrun₂, -, hp, -, hls₂, hrest₂⟩ :=
    served_alone hfree₂ (.mcp sendMessage) 1 (by rw [hgone, hrest]; rfl)
  rw [hgone, hrest] at hrest₂
  obtain ⟨rfl, rfl⟩ := Prod.mk.inj (Option.some.inj hrest₂)
  obtain ⟨⟨rest', s'⟩, hlast'⟩ := Option.isSome_iff_exists.mp hlast
  obtain ⟨w₃, hstep, rfl, -, -⟩ := serve_upTo hp hlast'
  have hreachable := hrun₁.reachable (hrun.reachable (.init emptyServer_init))
  have hquiet : NoConsent serverDeps "client-1" (.start 2 (.mcp sendMessage) :: ls₂) := by
    intro rows hmem
    rcases List.mem_cons.mp hmem with heq | hmem
    · exact absurd heq (by simp)
    · obtain ⟨i, heq⟩ := hls₂ _ hmem
      exact absurd heq (by simp)
  cases hstep with
  | cons _ _ hstep hnil =>
    cases hnil
    obtain ⟨hnone, hnothing⟩ := revoking_is_final hreachable hrevoked hrun₂ hquiet
    exact ⟨w₂, w₃, hnone, hnothing 2 sendMessage _ _ w₃ hfree₂ hp htoken hstep⟩

/-- The first deployment, up to its end. -/
theorem server_deployed : ∃ (w : ServerPool serverNames) (ls : _) (operatorId : String),
    (server serverNames serverDeps).machine.Run emptyServer ls w ∧ w.shared = deployedState ∧
      w.procs 0 = some {
        request := deploy "first", rest := .ret (.provision (.ok operatorId)) } ∧
      ∀ pid, pid ≠ 0 → w.procs pid = none := by
  have hdone : (((deploy "first").serve serverDeps).upTo accepted emptyServer.shared
      (serverInputs 22)).any (fun r => (operatorReturned r.1).isSome) = true := by decide +kernel
  obtain ⟨⟨rest, s⟩, hrest, hreturned⟩ := (Option.any_eq_true _ _).mp hdone
  obtain ⟨operatorId, hoperator⟩ := Option.isSome_iff_exists.mp hreturned
  have hnone : emptyServer.procs 0 = none := rfl
  obtain ⟨w, ls, rest', hrun, hshared, hp, hothers, -, hrest'⟩ :=
    served_alone hnone (deploy "first") 22 (by rw [hrest]; rfl)
  obtain ⟨rfl, -⟩ := Prod.mk.inj (Option.some.inj (hrest.symm.trans hrest'))
  have hret : rest = .ret (.provision (.ok operatorId)) := operatorReturned_eq hoperator
  exact ⟨w, _, operatorId, hrun, hshared, hret ▸ hp, fun pid hpid => hothers pid hpid⟩

theorem one_operator_twice : ∃ (w w' : ServerPool serverNames) (operatorId : String),
    w.procs 0 = some {
      request := deploy "first", rest := .ret (.provision (.ok operatorId)) } ∧
    w'.procs 1 = some {
      request := deploy "second", rest := .ret (.provision (.ok operatorId)) } := by
  obtain ⟨w, ls, operatorId, hrun, hshared, hp, hfree⟩ := server_deployed
  have hdone : (((deploy "second").serve serverDeps).upTo accepted deployedState
      (serverInputs 15)).any (fun r => (operatorReturned r.1).isSome) = true := by decide +kernel
  obtain ⟨⟨rest, s⟩, hrest, hreturned⟩ := (Option.any_eq_true _ _).mp hdone
  obtain ⟨operatorId', hoperator⟩ := Option.isSome_iff_exists.mp hreturned
  obtain ⟨w', ls', rest', hrun', -, hp', -, -, hrest'⟩ :=
    served_alone (hfree 1 (by decide)) (deploy "second") 15 (by rw [hshared, hrest]; rfl)
  rw [hshared] at hrest'
  obtain ⟨rfl, -⟩ := Prod.mk.inj (Option.some.inj (hrest.symm.trans hrest'))
  have hret : rest = .ret (.provision (.ok operatorId')) := operatorReturned_eq hoperator
  rw [hret] at hp'
  have hsame := one_operator (hrun.reachable (.init emptyServer_init)) hrun' hp hp' rfl
  exact ⟨w, w', operatorId, hp, hsame ▸ hp'⟩

theorem new_password_ends_access_rotated : ∃ (w₁ : ServerPool serverNames) (userId : String),
    w₁.shared.auth.LoggedOut userId := by
  obtain ⟨w, ls, operatorId, hrun, hshared, -, hfree⟩ := server_deployed
  -- the second deployment has sent its batch
  have hsent : (((deploy "second").serve serverDeps).upTo accepted deployedState
      (serverInputs 5)).isSome = true := by decide +kernel
  obtain ⟨w', ls', -, hrun', hshared', -⟩ :=
    served_alone (hfree 1 (by decide)) (deploy "second") 5 (by rw [hshared]; exact hsent)
  have hrotated : deployedState.auth.account.rows.any (fun a =>
      (servedState (deploy "second") 5 deployedState).auth.account.rows.any fun a' =>
        a'.id = a.id && a'.password ≠ a.password) = true := by decide +kernel
  obtain ⟨a, ha, hany⟩ := List.any_eq_true.mp hrotated
  obtain ⟨a', ha', hchanged⟩ := List.any_eq_true.mp hany
  simp only [Bool.and_eq_true, decide_eq_true_eq] at hchanged
  obtain ⟨-, -, w₁, -, -, -, hout, -⟩ := new_password_ends_access
    (hrun.reachable (.init emptyServer_init)) hrun' (hshared ▸ ha)
    (hshared' ▸ hshared ▸ ha') hchanged.1 hchanged.2
  exact ⟨w₁, a.userId, hout⟩

end sample

end Umail
