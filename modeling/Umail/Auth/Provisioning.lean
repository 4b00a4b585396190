import Umail.Auth.Grants
import Umail.Auth.Registration
import Umail.Auth.Tokens
import Umail.Contract.ExternalAddress

/-! # Provisioning

  `apps/server/src/auth/provisioning.ts`: what each deployment does to the
  auth database, next to the server that is running. It makes sure that the
  operator exists with the configured password, and that the resources and the
  clients of the server are registered.

  A deployment may be cut off between any two statements, or run beside
  another one.
-/

namespace Umail

open Lts Relational Json

/-! ### First-party clients -/

def FIRST_PARTY_CLIENT_DISCOVERY_ID : String := "umail-first-party"
def CURSOR_GROK_BOT_CLIENT_ID : String := "cursor-grok-bot"
def FIRST_PARTY_CLIENT_METADATA_JSON : String := "\x7b\"owner\":\"umail-provision\"\x7d"
def DEVICE_CODE_GRANT_TYPE : String := "urn:ietf:params:oauth:grant-type:device_code"

/-- The fields of `SchemaClient` that provisioning reads. -/
structure FirstPartyClient where
  clientId : String
  name : Option String
  grantTypes : Option (List String)
  responseTypes : Option (List String)
  redirectUris : Option (List String)
  requirePKCE : Option Bool
  metadata : Option String

inductive FirstPartyResource where
  | rest
  | mcp

def firstPartyClients : List (FirstPartyClient × FirstPartyResource) :=
  [({ clientId := CURSOR_GROK_BOT_CLIENT_ID
      name := some "Cursor / Grok Bot"
      grantTypes := some ["authorization_code", "refresh_token"]
      responseTypes := some ["code"]
      redirectUris := some [CURSOR_CLOUD_CALLBACK_URI]
      requirePKCE := some true
      metadata := some FIRST_PARTY_CLIENT_METADATA_JSON }, .mcp),
   ({ clientId := UMAIL_CLI_CLIENT_ID
      name := some "AgentMail CLI"
      grantTypes := some [DEVICE_CODE_GRANT_TYPE, "refresh_token"]
      responseTypes := some []
      redirectUris := some []
      requirePKCE := some false
      metadata := some FIRST_PARTY_CLIENT_METADATA_JSON }, .rest)]

def jsonText (values : List String) : String :=
  String.ofList (stringify (values.map (·.toList)))

/-! ### Statements -/

abbrev Statement := AuthDb → Except D1Error AuthDb

/-- `db.batch`: all statements in order, or none. -/
def batch (statements : List Statement) : Statement := fun db =>
  statements.foldlM (fun db statement => statement db) db

def insertRow {ρ κ : Type} [Keyed ρ κ] (table : AuthDb → Table ρ)
    (replace : AuthDb → Table ρ → AuthDb) (row : ρ) : Statement := fun db =>
  match (table db).insert? row with
  | none => .error .unique
  | some t => .ok (replace db t)

/-- What `persistOperatorIdentity` gets. -/
structure OperatorIdentity where
  operatorId : String
  operatorEmail : String
  userExists : Bool
  account : Option CredentialAccountRow
  passwordHash : String
  passwordChanged : Bool
  now : Instant

def CREDENTIAL_PROVIDER_ID : String := "credential"

namespace OperatorIdentity

variable (input : OperatorIdentity)

def saveUser : Statement :=
  if input.userExists then fun db => .ok { db with
    user := db.user.update (·.id = input.operatorId)
      (fun u => { u with name := "operator", emailVerified := true, updatedAt := input.now })
      fun _ => rfl }
  else insertRow (·.user) (fun db user => { db with user }) {
    id := input.operatorId, name := "operator", email := input.operatorEmail
    emailVerified := true, createdAt := input.now, updatedAt := input.now }

def saveAccount : List Statement :=
  match input.account with
  | none => [insertRow (·.account) (fun db account => { db with account }) {
      id := input.operatorId, accountId := input.operatorId
      providerId := CREDENTIAL_PROVIDER_ID, userId := input.operatorId
      password := some input.passwordHash, createdAt := input.now, updatedAt := input.now }]
  | some account =>
    if input.passwordChanged then [fun db => .ok { db with
      account := db.account.update (·.id = account.id)
        (fun a => { a with password := some input.passwordHash, updatedAt := input.now })
        fun _ => rfl }]
    else []

/-- A new password ends every session and grant made with the old one. -/
def endGrants : List Statement :=
  if input.passwordChanged && input.account.isSome then
    [fun db => .ok { db with session := db.session.delete (·.userId = input.operatorId) },
     fun db => .ok { db with
       oauthAccessToken := db.oauthAccessToken.delete (·.userId = some input.operatorId) },
     fun db => .ok { db with
       oauthRefreshToken := db.oauthRefreshToken.delete (·.userId = some input.operatorId) },
     fun db => .ok (db.deleteConsents (·.userId = some input.operatorId)),
     fun db => .ok { db with verification := .empty },
     fun db => .ok { db with deviceCode := .empty }]
  else []

def statements : List Statement := input.saveUser :: (input.saveAccount ++ input.endGrants)

end OperatorIdentity

/-! ### What the statements leave -/

theorem batch_cons {statement : Statement} {rest : List Statement} {db db' : AuthDb} :
    batch (statement :: rest) db = .ok db' ↔
      ∃ db₁, statement db = .ok db₁ ∧ batch rest db₁ = .ok db' := by
  simp only [batch, List.foldlM_cons]
  cases hstatement : statement db with
  | error error => exact ⟨fun h => absurd h (by simp [bind, Except.bind]), fun h =>
      by simp at h⟩
  | ok db₁ =>
    constructor
    · exact fun h => ⟨db₁, rfl, h⟩
    · rintro ⟨db₂, heq, hrest⟩
      obtain rfl := Except.ok.inj heq
      exact hrest

theorem batch_append {first rest : List Statement} {db db' : AuthDb} :
    batch (first ++ rest) db = .ok db' ↔
      ∃ db₁, batch first db = .ok db₁ ∧ batch rest db₁ = .ok db' := by
  induction first generalizing db with
  | nil =>
    constructor
    · exact fun h => ⟨db, rfl, h⟩
    · rintro ⟨db₁, heq, hrest⟩
      obtain rfl := Except.ok.inj heq
      exact hrest
  | cons statement first ih =>
    rw [List.cons_append, batch_cons]
    simp only [batch_cons, ih]
    constructor
    · rintro ⟨db₁, hstatement, db₂, hfirst, hrest⟩
      exact ⟨db₂, ⟨db₁, hstatement, hfirst⟩, hrest⟩
    · rintro ⟨db₂, ⟨db₁, hstatement, hfirst⟩, hrest⟩
      exact ⟨db₁, hstatement, db₂, hfirst, hrest⟩

theorem insertRow_ok {ρ κ : Type} [Keyed ρ κ] {table : AuthDb → Table ρ}
    {replace : AuthDb → Table ρ → AuthDb} {row : ρ} {db db' : AuthDb}
    (h : insertRow table replace row db = .ok db') :
    ∃ t, (table db).insert? row = some t ∧ db' = replace db t := by
  unfold insertRow at h
  split at h
  · exact absurd h (by simp)
  · next t hinsert => exact ⟨t, hinsert, (Except.ok.inj h).symm⟩

/-- The database once the user has nothing left. -/
def AuthDb.logOut (db : AuthDb) (userId : String) : AuthDb :=
  { { db with
      session := db.session.delete (·.userId = userId)
      oauthAccessToken := db.oauthAccessToken.delete (·.userId = some userId)
      oauthRefreshToken := db.oauthRefreshToken.delete (·.userId = some userId)
      }.deleteConsents (·.userId = some userId) with
    verification := .empty
    deviceCode := .empty }

theorem AuthDb.logOut_loggedOut (db : AuthDb) (userId : String) :
    (db.logOut userId).LoggedOut userId where
  sessions _ hs := of_decide_eq_false (Table.mem_delete.mp hs).2
  accessTokens _ ht := of_decide_eq_false (Table.mem_delete.mp ht).2
  refreshTokens _ ht := of_decide_eq_false (Table.mem_delete.mp ht).2
  consents _ hc := of_decide_eq_false (Table.mem_delete.mp hc).2
  verifications := rfl
  deviceCodes := rfl

namespace OperatorIdentity

variable {input : OperatorIdentity} {db db' : AuthDb}

/-- The password of an account that is there changes. -/
def replaces (input : OperatorIdentity) : Bool := input.passwordChanged && input.account.isSome

/-- The user that the batch found, if it did. -/
def FindsUser (input : OperatorIdentity) (db : AuthDb) : Prop :=
  input.userExists = true →
    ∃ u ∈ db.user, u.id = input.operatorId ∧ u.email = input.operatorEmail

/-- The account that the batch found, if it did. -/
def FindsAccount (input : OperatorIdentity) (db : AuthDb) : Prop :=
  ∀ a, input.account = some a →
    ∃ a' ∈ db.account, a'.id = a.id ∧ a'.userId = input.operatorId

theorem saveUser_ok (h : input.saveUser db = .ok db') : ∃ user, db' = { db with user } ∧
    (∀ u ∈ db.user, ∃ u' ∈ user, u'.id = u.id ∧ u'.email = u.email) ∧
    (input.FindsUser db → ∃ u ∈ user, u.id = input.operatorId ∧
      u.email = input.operatorEmail ∧
      u.name = "operator" ∧ u.emailVerified = true) := by
  unfold saveUser at h
  split at h
  · next hexists =>
    obtain rfl := Except.ok.inj h
    refine ⟨_, rfl, fun u hu => ⟨_, Table.mem_update.mpr ⟨u, hu, rfl⟩, ?_⟩,
      fun hfinds => ?_⟩
    · by_cases hid : u.id = input.operatorId
      · simp [hid]
      · simp [hid]
    · obtain ⟨u, hu, hid, hemail⟩ := hfinds hexists
      exact ⟨_, Table.mem_update.mpr ⟨u, hu, if_pos (decide_eq_true hid)⟩, hid, hemail,
        rfl, rfl⟩
  · obtain ⟨user, hinsert, rfl⟩ := insertRow_ok h
    refine ⟨user, rfl, fun u hu => ⟨u, (Table.mem_insert? hinsert).mpr (.inl hu), rfl,
      rfl⟩, ?_⟩
    exact fun _ => ⟨_, (Table.mem_insert? hinsert).mpr (.inr rfl), rfl, rfl, rfl, rfl⟩

theorem saveAccount_ok (h : batch input.saveAccount db = .ok db')
    (haccount : input.FindsAccount db) :
    ∃ account, db' = { db with account } ∧ ∀ a ∈ db.account, ∃ a' ∈ account,
      a'.id = a.id ∧ a'.userId = a.userId ∧
      (a'.password = a.password ∨ input.replaces = true ∧ a.userId = input.operatorId) := by
  unfold saveAccount at h
  split at h
  · obtain ⟨db₁, hinserted, hnil⟩ := batch_cons.mp h
    obtain rfl := Except.ok.inj hnil
    obtain ⟨account, hinsert, rfl⟩ := insertRow_ok hinserted
    refine ⟨account, rfl, fun a ha => ⟨a, ?_, rfl, rfl, .inl rfl⟩⟩
    exact (Table.mem_insert? hinsert).mpr (.inl ha)
  next stored hstored =>
  split at h
  · next hchanged =>
    obtain ⟨db₁, hupdate, hnil⟩ := batch_cons.mp h
    obtain rfl := Except.ok.inj hnil
    obtain rfl := Except.ok.inj hupdate
    refine ⟨_, rfl, fun a ha => ⟨_, Table.mem_update.mpr ⟨a, ha, rfl⟩, ?_⟩⟩
    by_cases hid : a.id = stored.id
    · -- the account that was found belongs to the operator
      obtain ⟨a', ha', hid', huser⟩ := haccount stored hstored
      obtain rfl := db.account.eq_of_clash ha ha' (hid.trans hid'.symm)
      simp [hid, huser, replaces, hchanged, hstored]
    · simp [hid]
  · obtain rfl := Except.ok.inj h
    exact ⟨db.account, rfl, fun a ha => ⟨a, ha, rfl, rfl, .inl rfl⟩⟩

theorem batch_endGrants (input : OperatorIdentity) (db : AuthDb) :
    batch input.endGrants db =
      .ok (if input.replaces then db.logOut input.operatorId else db) := by
  unfold endGrants replaces
  split
  · rfl
  · rfl

/-- What the batch leaves. -/
theorem statements_ok (h : batch input.statements db = .ok db')
    (haccount : input.FindsAccount db) :
    ∃ user account, input.saveUser db = .ok { db with user } ∧
      batch input.saveAccount { db with user } = .ok { db with user, account } ∧
      db' = if input.replaces then { db with user, account }.logOut input.operatorId
        else { db with user, account } := by
  obtain ⟨db₁, huser, hrest⟩ := batch_cons.mp h
  obtain ⟨user, rfl, -⟩ := saveUser_ok huser
  obtain ⟨db₂, hsave, hend⟩ := batch_append.mp hrest
  obtain ⟨account, rfl, -⟩ := saveAccount_ok hsave haccount
  rw [batch_endGrants] at hend
  exact ⟨user, account, huser, hsave, (Except.ok.inj hend).symm⟩

theorem statements_user (h : batch input.statements db = .ok db')
    (haccount : input.FindsAccount db) (huser : input.FindsUser db) :
    ∃ u ∈ db'.user, u.id = input.operatorId ∧ u.email = input.operatorEmail ∧
      u.name = "operator" ∧ u.emailVerified = true := by
  obtain ⟨user, account, hsave, -, hdb'⟩ := statements_ok h haccount
  have hfield : db'.user = user := by
    rw [hdb']
    split <;> rfl
  obtain ⟨user', heq, -, hstored⟩ := saveUser_ok hsave
  obtain rfl : user = user' := congrArg AuthDb.user heq
  rw [hfield]
  exact hstored huser

end OperatorIdentity

/-! ### The operation -/

/-- `better-auth/crypto`. A hash accepts the password it was made of. -/
structure PasswordLibrary where
  hashPassword : (salt password : String) → String
  verifyPassword : (hash password : String) → Bool
  verify_hashPassword : ∀ salt password, verifyPassword (hashPassword salt password)
    password = true

structure ProvisionRequest where
  operatorEmail : String
  password : String
  restResource : String
  mcpResource : String

def ProvisionRequest.url (request : ProvisionRequest) : FirstPartyResource → String
  | .rest => request.restResource
  | .mcp => request.mcpResource

section provision
variable [Unicode] {ids : IdNames}

def canonicalOperatorEmail (raw : String) : Option ExternalMailAddress :=
  (parseExternalMailAddress raw).map (·.address)

def betterAuthLookupEmail (address : ExternalMailAddress) : Option ExternalMailAddress :=
  (parseExternalMailAddress (toLowerCase address.val)).map (·.address)

/-- The email that the operator is stored under. -/
def ProvisionRequest.lookupEmail (request : ProvisionRequest) : Option ExternalMailAddress :=
  (canonicalOperatorEmail request.operatorEmail).bind betterAuthLookupEmail

def AuthDb.credentialAccount (db : AuthDb) (operatorId : String) : Option CredentialAccountRow :=
  db.account.find? fun a => a.userId = operatorId && a.providerId = CREDENTIAL_PROVIDER_ID

def loadCredentialAccount (operatorId : String) : AuthOperation ids (Option CredentialAccountRow) :=
  authRead fun db => db.credentialAccount operatorId

structure PasswordHash where
  hash : String
  changed : Bool

def nextPasswordHash (passwords : PasswordLibrary) (password : String)
    (existingHash : Option String) : AuthOperation ids PasswordHash :=
  match existingHash.filter (passwords.verifyPassword · password) with
  | some hash => return { hash, changed := false }
  | none => do
    let hash ← authTake fun i => passwords.hashPassword i.salt password
    return { hash, changed := true }

def persistOperatorIdentity (input : OperatorIdentity) : AuthOperation ids Unit :=
  authWrite fun db _ => batch input.statements db

def resourceScopes : String := jsonText [UMAIL_OAUTH_SCOPE, OFFLINE_ACCESS_SCOPE]

def upsertOwnedResource (identifier name : String) (now : Instant) : AuthOperation ids Unit := do
  let existing ← authRead fun db => db.oauthResource.find? (·.identifier = identifier)
  match existing with
  | none => do
    let id ← authTake (·.randomId)
    authWrite fun db _ =>
      insertRow (·.oauthResource) (fun db oauthResource => { db with oauthResource })
        { id, identifier, name, accessTokenTtl := 300, allowedScopes := resourceScopes
          dpopBoundAccessTokensRequired := false, disabled := false, policyVersion := 1
          createdAt := now, updatedAt := now } db
  | some _ =>
    authWrite fun db _ => .ok { db with
      oauthResource := db.oauthResource.update (·.identifier = identifier)
        (fun r => { r with
          name, accessTokenTtl := 300, allowedScopes := resourceScopes, updatedAt := now })
        fun _ => rfl }

def provisionStaticResources (request : ProvisionRequest) (now : Instant) :
    AuthOperation ids Unit := do
  upsertOwnedResource request.restResource "AgentMail REST" now
  upsertOwnedResource request.mcpResource "AgentMail MCP" now

/-- The row of a client that is not registered yet. -/
def FirstPartyClient.row (client : FirstPartyClient) (now : Instant) : OauthClientRow where
  id := client.clientId
  clientId := client.clientId
  clientDiscoveryId := some FIRST_PARTY_CLIENT_DISCOVERY_ID
  name := some (client.name.getD client.clientId)
  tokenEndpointAuthMethod := "none"
  grantTypes := jsonText (client.grantTypes.getD [])
  responseTypes := jsonText (client.responseTypes.getD [])
  redirectUris := jsonText (client.redirectUris.getD [])
  scopes := jsonText [UMAIL_OAUTH_SCOPE, OFFLINE_ACCESS_SCOPE]
  requirePKCE := client.requirePKCE = some true
  metadata := client.metadata
  disabled := false
  createdAt := now
  updatedAt := now

/-- The columns of a registered client that provisioning leaves as they are. -/
def FirstPartyClient.rewrite (client : FirstPartyClient) (now : Instant) (row : OauthClientRow) :
    OauthClientRow :=
  { client.row now with
    id := row.id, clientId := row.clientId, clientDiscoveryId := row.clientDiscoveryId
    disabled := row.disabled, createdAt := row.createdAt }

def linkResource (clientId resourceId : String) (now : Instant) : AuthOperation ids Unit := do
  let link ← authRead fun db =>
    db.oauthClientResource.find? fun l => l.clientId = clientId && l.resourceId = resourceId
  match link with
  | some _ => return ()
  | none => do
    let id ← authTake (·.randomId)
    authWrite fun db _ =>
      insertRow (·.oauthClientResource)
        (fun db oauthClientResource => { db with oauthClientResource })
        { id, clientId, resourceId, createdAt := now } db

def provisionStaticClient (client : FirstPartyClient) (resource : String) (now : Instant) :
    AuthOperation ids Unit := do
  let existing ← authRead fun db => db.oauthClient.find? (·.clientId = client.clientId)
  match existing with
  | none =>
    authWrite fun db _ =>
      insertRow (·.oauthClient) (fun db oauthClient => { db with oauthClient }) (client.row now) db
  | some row =>
    if row.clientDiscoveryId ≠ some FIRST_PARTY_CLIENT_DISCOVERY_ID then
      authFail (.died ("oauthClient " ++ client.clientId ++ " is owned by " ++
        row.clientDiscoveryId.getD "another registrant"))
    else
      authWrite fun db _ => .ok { db with
        oauthClient := db.oauthClient.update (·.clientId = client.clientId) (client.rewrite now)
          fun _ => rfl }
  linkResource client.clientId resource now

/-- The operator is the user with the configured email. -/
def operatorIdOf (existingUser : Option UserRow) : AuthOperation ids String :=
  match existingUser with
  | none => authTake (·.randomId)
  | some user => pure user.id

/-- The id of the operator. -/
def provisionAuth (passwords : PasswordLibrary) (request : ProvisionRequest) :
    AuthOperation ids String :=
  match request.lookupEmail with
  | none => authFail (.died "UMAIL_OPERATOR_EMAIL is not a valid email address.")
  | some operatorEmail => do
    let now ← authTake (·.now)
    let existingUser ← authRead fun db => db.user.find? (·.email = operatorEmail.val)
    let operatorId ← operatorIdOf existingUser
    let existingAccount ← loadCredentialAccount operatorId
    let passwordHash ← nextPasswordHash passwords request.password
      (existingAccount.bind (·.password))
    persistOperatorIdentity {
      operatorId, operatorEmail := operatorEmail.val, userExists := existingUser.isSome
      account := existingAccount, passwordHash := passwordHash.hash
      passwordChanged := passwordHash.changed, now }
    provisionStaticResources request now
    firstPartyClients.forM fun (client, resource) =>
      provisionStaticClient client (request.url resource) now
    return operatorId

/-! ### Beside other requests -/

section beside
variable {Chooses : String → PrincipalPolicy → Prop} {E : Interference AuthDb (AuthInput ids)}
  {db db' : AuthDb}

theorem OperatorIdentity.statements_keeps {input : OperatorIdentity}
    (h : batch input.statements db = .ok db') (haccount : input.FindsAccount db) :
    db.Keeps ids Chooses db' := by
  obtain ⟨user, account, huser, hsave, rfl⟩ := statements_ok h haccount
  obtain ⟨user', heq, husers, -⟩ := saveUser_ok huser
  obtain rfl : user = user' := congrArg AuthDb.user heq
  obtain ⟨account', heq, haccounts⟩ := saveAccount_ok hsave haccount
  obtain rfl : account = account' := congrArg AuthDb.account heq
  cases hreplaces : input.replaces with
  | true =>
    refine ⟨fun c hc => (Table.mem_delete.mp hc).1, fun p hp => .inl (AuthDb.mem_withConsents hp),
      husers, fun a ha => ?_⟩
    obtain ⟨a', ha', hid, huserId, hpassword⟩ := haccounts a ha
    refine ⟨a', ha', hid, huserId, hpassword.imp_right fun hchanged => ?_⟩
    rw [hchanged.2]
    exact AuthDb.logOut_loggedOut _ _
  | false =>
    refine ⟨fun _ hc => hc, fun _ hp => .inl hp, husers, fun a ha => ?_⟩
    obtain ⟨a', ha', hid, huserId, hpassword⟩ := haccounts a ha
    refine ⟨a', ha', hid, huserId, hpassword.imp_right fun hchanged => ?_⟩
    exact absurd (hreplaces.symm.trans hchanged.1) (by simp)

/-- The user with this id is the operator. -/
def AuthDb.Operator (db : AuthDb) (request : ProvisionRequest) (operatorId : String) : Prop :=
  ∃ email, request.lookupEmail = some email ∧
    ∃ u ∈ db.user, u.id = operatorId ∧ u.email = email.val

theorem AuthDb.Operator.stays {request : ProvisionRequest} {operatorId : String}
    (h : db.Operator request operatorId) (hdb : db.Identities db') :
    db'.Operator request operatorId := by
  obtain ⟨email, hemail, u, hu, hid, hstored⟩ := h
  obtain ⟨u', hu', hid', hemail'⟩ := hdb.users u hu
  exact ⟨email, hemail, u', hu', hid'.trans hid, hemail'.trans hstored⟩

/-- There is one operator for an email. -/
theorem AuthDb.Operator.unique {request request' : ProvisionRequest}
    {operatorId operatorId' : String} (h : db.Operator request operatorId)
    (h' : db.Operator request' operatorId') (hsame : request.lookupEmail = request'.lookupEmail) :
    operatorId = operatorId' := by
  obtain ⟨email, hemail, u, hu, rfl, hstored⟩ := h
  obtain ⟨email', hemail', u', hu', rfl, hstored'⟩ := h'
  obtain rfl : email = email' := Option.some.inj (hemail.symm.trans (hsame.trans hemail'))
  rw [db.user.eq_of_clash hu hu' (.inr (hstored.trans hstored'.symm))]

theorem upsertOwnedResource_ensures (hE : AuthServes E Chooses) (identifier name : String)
    (now : Instant) : (upsertOwnedResource identifier name now).Ensures E fun _ => True := by
  refine auth_bind (auth_read hE.idle fun db _ => ?_)
  split
  · refine auth_bind (auth_take hE.idle fun i => auth_write hE.idle fun db i db' hI _ hrun => ?_)
    obtain ⟨t, -, rfl⟩ := insertRow_ok hrun
    exact ⟨hE.keeps _ _ hI (.of_grants (fun _ => id) (fun _ => .inl) rfl rfl), trivial⟩
  · refine auth_write hE.idle fun db i db' hI _ hrun => ?_
    obtain rfl := Except.ok.inj hrun
    exact ⟨hE.keeps _ _ hI (.of_grants (fun _ => id) (fun _ => .inl) rfl rfl), trivial⟩

theorem linkResource_ensures (hE : AuthServes E Chooses) (clientId resourceId : String)
    (now : Instant) : (linkResource clientId resourceId now).Ensures E fun _ => True := by
  refine auth_bind (auth_read hE.idle fun db _ => ?_)
  split
  · exact auth_pure trivial
  · refine auth_bind (auth_take hE.idle fun i => auth_write hE.idle fun db i db' hI _ hrun => ?_)
    obtain ⟨t, -, rfl⟩ := insertRow_ok hrun
    exact ⟨hE.keeps _ _ hI (.of_grants (fun _ => id) (fun _ => .inl) rfl rfl), trivial⟩

theorem provisionStaticClient_ensures (hE : AuthServes E Chooses) (client : FirstPartyClient)
    (resource : String) (now : Instant) :
    (provisionStaticClient client resource now).Ensures E fun _ => True := by
  have hlink := linkResource_ensures hE client.clientId resource now
  refine auth_bind (auth_read hE.idle fun db _ => ?_)
  split
  · refine auth_bind (auth_write hE.idle fun db i db' hI _ hrun => ?_)
    obtain ⟨t, -, rfl⟩ := insertRow_ok hrun
    exact ⟨hE.keeps _ _ hI (.of_grants (fun _ => id) (fun _ => .inl) rfl rfl), hlink⟩
  · split
    · exact auth_bind auth_fail
    · refine auth_bind (auth_write hE.idle fun db i db' hI _ hrun => ?_)
      obtain rfl := Except.ok.inj hrun
      exact ⟨hE.keeps _ _ hI (.of_grants (fun _ => id) (fun _ => .inl) rfl rfl), hlink⟩

theorem nextPasswordHash_ensures (hE : AuthServes E Chooses) (passwords : PasswordLibrary)
    (password : String) (existingHash : Option String) :
    (nextPasswordHash passwords password existingHash).Ensures E fun _ => True := by
  unfold nextPasswordHash
  split
  · exact auth_pure trivial
  · exact auth_bind (auth_take hE.idle fun _ => auth_pure trivial)

theorem provisionStaticResources_ensures (hE : AuthServes E Chooses) (request : ProvisionRequest)
    (now : Instant) : (provisionStaticResources request now).Ensures E fun _ => True :=
  auth_bind ((upsertOwnedResource_ensures hE _ _ now).mono fun _ _ =>
    upsertOwnedResource_ensures hE _ _ now)

/-- What a provisioning run returns is the operator, whatever runs beside it. -/
theorem provisionAuth_yields (hE : AuthServes E Chooses) (passwords : PasswordLibrary)
    (request : ProvisionRequest) (db : AuthDb) :
    (provisionAuth passwords request).Yields E True
      (fun operatorId db' => db'.Operator request operatorId) db := by
  unfold provisionAuth
  split
  · exact yields_fail trivial
  next email hemail =>
  refine yields_bind (yields_take hE.idle fun i _ _ _ => ?_)
  refine yields_bind (yields_read hE.idle fun db₁ _ _ db₂ hdb₂ _ => ?_)
  generalize hexisting : db₁.user.find? (·.email = email.val) = existingUser
  have hfound : ∀ u, existingUser = some u →
      ∃ u' ∈ db₂.user, u'.id = u.id ∧ u'.email = email.val := by
    rintro u rfl
    obtain ⟨u', hu', hid, hemail'⟩ := (hE.rely _ _ hdb₂).users u (Table.find?_mem hexisting)
    exact ⟨u', hu', hid, hemail'.trans (by simpa using Table.find?_prop hexisting)⟩
  -- the user that was found is the operator
  have hchosen : (operatorIdOf existingUser).Yields E True (fun operatorId db₃ =>
      existingUser.isSome = true → ∃ u ∈ db₃.user, u.id = operatorId ∧
        u.email = email.val)
      db₂ := by
    cases existingUser with
    | none => exact yields_take hE.idle fun _ _ _ _ h => absurd h (by simp)
    | some u =>
      refine yields_pure fun db₃ hdb₃ _ _ => ?_
      obtain ⟨u', hu', hid, hemail'⟩ := hfound u rfl
      obtain ⟨u'', hu'', hid', hemail''⟩ := (hE.rely _ _ hdb₃).users u' hu'
      exact ⟨u'', hu'', hid'.trans hid, hemail''.trans hemail'⟩
  refine yields_bind (hchosen.mono fun operatorId db₃ huser => ?_)
  refine yields_bind (yields_read hE.idle fun db₄ hdb₄ _ db₅ hdb₅ _ => ?_)
  generalize haccount : db₄.credentialAccount operatorId = account
  refine yields_bind (((nextPasswordHash_ensures hE passwords request.password _).identities hE
    db₅).mono fun passwordHash db₆ hdb₆ => ?_)
  refine yields_bind (yields_write hE.idle ?_ fun _ _ _ _ _ _ _ => trivial)
  intro db₇ _ db₈ hdb₇ hI _ hrun
  have hsince : db₅.Identities db₇ := hdb₆.2.trans (hE.rely _ _ hdb₇)
  have haccount₇ : ∀ a, account = some a →
      ∃ a' ∈ db₇.account, a'.id = a.id ∧ a'.userId = operatorId := by
    rintro a rfl
    obtain ⟨a', ha', hid, huserId⟩ :=
      ((hE.rely _ _ hdb₅).trans hsince).accounts a (Table.find?_mem haccount)
    have hprop := Table.find?_prop haccount
    simp only [Bool.and_eq_true, decide_eq_true_eq] at hprop
    exact ⟨a', ha', hid, huserId.trans hprop.1⟩
  have huser₇ : existingUser.isSome = true →
      ∃ u ∈ db₇.user, u.id = operatorId ∧ u.email = email.val := by
    intro hsome
    obtain ⟨u, hu, hid, hemail'⟩ := huser hsome
    obtain ⟨u', hu', hid', hemail''⟩ :=
      ((hE.rely _ _ hdb₄).trans ((hE.rely _ _ hdb₅).trans hsince)).users u hu
    exact ⟨u', hu', hid'.trans hid, hemail''.trans hemail'⟩
  refine ⟨hE.keeps _ _ hI (OperatorIdentity.statements_keeps hrun haccount₇),
    fun db₉ hdb₉ _ => ?_⟩
  have hoperator : db₈.Operator request operatorId := by
    obtain ⟨u, hu, hid, hstored, -⟩ :=
      OperatorIdentity.statements_user hrun haccount₇ huser₇
    exact ⟨email, hemail, u, hu, hid, hstored⟩
  refine yields_bind (((provisionStaticResources_ensures hE request i.now).identities hE
    db₉).mono fun _ db₁₀ hdb₁₀ => ?_)
  refine yields_bind
    (((auth_forM fun p => ?_).identities hE db₁₀).mono fun _ db₁₁ hdb₁₁ => ?_)
  · exact provisionStaticClient_ensures hE p.1 (request.url p.2) i.now
  · refine yields_pure fun db₁₂ hdb₁₂ _ => hoperator.stays ?_
    exact (hE.rely _ _ hdb₉).trans (hdb₁₀.2.trans (hdb₁₁.2.trans (hE.rely _ _ hdb₁₂)))

end beside

end provision

/-! ### On its own -/

section alone
variable {ids : IdNames} {mayFail : Prop} {db : AuthDb}

/-- What a deployment brings the row of a resource to. -/
def OauthResourceRow.Configured (name : String) (r : OauthResourceRow) : Prop :=
  r.name = name ∧ r.accessTokenTtl = 300 ∧ r.allowedScopes = resourceScopes

/-- What a deployment brings the row of a client to. -/
def FirstPartyClient.Registered (client : FirstPartyClient) (c : OauthClientRow) : Prop :=
  c.clientDiscoveryId = some FIRST_PARTY_CLIENT_DISCOVERY_ID ∧ client.rewrite c.updatedAt c = c

/-- The client is registered, and linked to its resource. -/
def AuthDb.HasClient (db : AuthDb) (client : FirstPartyClient) (resource : String) : Prop :=
  (∃ c ∈ db.oauthClient, c.clientId = client.clientId ∧ client.Registered c) ∧
    ∃ l ∈ db.oauthClientResource, l.clientId = client.clientId ∧ l.resourceId = resource

def UserRow.unstamped (u : UserRow) : UserRow := { u with updatedAt := 0 }
def OauthResourceRow.unstamped (r : OauthResourceRow) : OauthResourceRow :=
  { r with updatedAt := 0 }
def OauthClientRow.unstamped (c : OauthClientRow) : OauthClientRow := { c with updatedAt := 0 }

/-- The database but for when its users, resources and clients were updated. -/
def AuthDb.unstamped (db : AuthDb) : AuthDb :=
  { db with
    user := db.user.update (fun _ => true) (·.unstamped) fun _ => rfl
    oauthResource := db.oauthResource.update (fun _ => true) (·.unstamped) fun _ => rfl
    oauthClient := db.oauthClient.update (fun _ => true) (·.unstamped) fun _ => rfl }

/-- What the rows have to agree on. -/
theorem AuthDb.unstamped_eq {db : AuthDb} {user : Table UserRow}
    {oauthResource : Table OauthResourceRow} {oauthClient : Table OauthClientRow}
    (huser : user.rows.map (·.unstamped) = db.user.rows.map (·.unstamped))
    (hresource : oauthResource.rows.map (·.unstamped) = db.oauthResource.rows.map (·.unstamped))
    (hclient : oauthClient.rows.map (·.unstamped) = db.oauthClient.rows.map (·.unstamped)) :
    { db with user, oauthResource, oauthClient : AuthDb }.unstamped = db.unstamped := by
  refine AuthDb.ext ?_ rfl rfl rfl rfl ?_ ?_ rfl rfl rfl rfl rfl
  · exact Table.ext huser
  · exact Table.ext hresource
  · exact Table.ext hclient

theorem upsertOwnedResource_solo {identifier name : String} (now : Instant)
    (h : mayFail ∨ ∃ r ∈ db.oauthResource, r.identifier = identifier) :
    (upsertOwnedResource identifier name now : AuthOperation ids Unit).Yields .solo mayFail
      (fun _ db' => ∃ oauthResource, db' = { db with oauthResource } ∧
        Table.Upserted (·.identifier) identifier (·.Configured name) (·.unstamped)
          db.oauthResource oauthResource) db := by
  refine yields_bind (solo_read ?_)
  split
  · next hfind =>
    have hnone := Table.find?_eq_none.mp hfind
    have hfail : mayFail := by
      refine h.resolve_right ?_
      rintro ⟨r, hr, hid⟩
      simpa [hid] using hnone r hr
    refine yields_bind (solo_take fun i => solo_write ?_ fun _ _ _ => hfail)
    intro j db' hrun
    obtain ⟨t, hinsert, rfl⟩ := insertRow_ok hrun
    exact ⟨t, rfl, .insert (fun r hr => of_decide_eq_false (hnone r hr)) hinsert rfl
      ⟨rfl, rfl, rfl⟩⟩
  · next r hfind =>
    refine solo_write ?_ fun _ _ herror => absurd herror (by simp)
    intro j db' hrun
    obtain rfl := Except.ok.inj hrun
    refine ⟨_, rfl, .update (fun a b hab => .inr hab) (fun _ => rfl) (Table.find?_mem hfind)
      (by simpa using Table.find?_prop hfind) ⟨rfl, rfl, rfl⟩ ?_⟩
    rintro r ⟨hname, httl, hscopes⟩
    simp [OauthResourceRow.unstamped, ← hname, ← httl, ← hscopes]

theorem linkResource_solo {clientId resourceId : String} (now : Instant)
    (h : mayFail ∨ ∃ l ∈ db.oauthClientResource, l.clientId = clientId ∧
      l.resourceId = resourceId) :
    (linkResource clientId resourceId now : AuthOperation ids Unit).Yields .solo mayFail
      (fun _ db' => ∃ oauthClientResource, db' = { db with oauthClientResource } ∧
        (∃ l ∈ oauthClientResource, l.clientId = clientId ∧ l.resourceId = resourceId) ∧
        (∀ l ∈ db.oauthClientResource, l ∈ oauthClientResource) ∧
        ((∃ l ∈ db.oauthClientResource, l.clientId = clientId ∧ l.resourceId = resourceId) →
          oauthClientResource = db.oauthClientResource)) db := by
  refine yields_bind (solo_read ?_)
  split
  · next l hfind =>
    have hprop := Table.find?_prop hfind
    simp only [Bool.and_eq_true, decide_eq_true_eq] at hprop
    exact solo_pure ⟨_, rfl, ⟨l, Table.find?_mem hfind, hprop⟩, fun _ hl => hl,
      fun _ => rfl⟩
  · next hfind =>
    have hnone : ¬ ∃ l ∈ db.oauthClientResource,
        l.clientId = clientId ∧ l.resourceId = resourceId := by
      rintro ⟨l, hl, hclient, hresource⟩
      simpa [hclient, hresource] using Table.find?_eq_none.mp hfind l hl
    refine yields_bind (solo_take fun i => solo_write ?_ fun _ _ _ => h.resolve_right hnone)
    intro j db' hrun
    obtain ⟨t, hinsert, rfl⟩ := insertRow_ok hrun
    refine ⟨t, rfl, ⟨_, (Table.mem_insert? hinsert).mpr (.inr rfl), rfl, rfl⟩, fun l hl => ?_,
      fun hlinked => absurd hlinked hnone⟩
    exact (Table.mem_insert? hinsert).mpr (.inl hl)

/-- What a deployment leaves of the clients. -/
structure AuthDb.SavesClients (request : ProvisionRequest)
    (clients : List (FirstPartyClient × FirstPartyResource)) (db db' : AuthDb) : Prop where
  saved : ∀ p ∈ clients, db'.HasClient p.1 (request.url p.2)
  others : ∀ client resource, (∀ p ∈ clients, client.clientId ≠ p.1.clientId) →
    db.HasClient client resource → db'.HasClient client resource
  again : (∀ p ∈ clients, db.HasClient p.1 (request.url p.2)) →
    db'.oauthClient.rows.map (·.unstamped) = db.oauthClient.rows.map (·.unstamped) ∧
      db'.oauthClientResource = db.oauthClientResource

theorem provisionStaticClient_solo {request : ProvisionRequest} {client : FirstPartyClient}
    {resource : FirstPartyResource} (now : Instant)
    (h : mayFail ∨ db.HasClient client (request.url resource)) :
    (provisionStaticClient client (request.url resource) now :
      AuthOperation ids Unit).Yields .solo mayFail
      (fun _ db' => ∃ oauthClient oauthClientResource,
        db' = { db with oauthClient, oauthClientResource } ∧
        db.SavesClients request [(client, resource)] db') db := by
  have hlink : ∀ oauthClient, Table.Upserted (·.clientId) client.clientId client.Registered
      (·.unstamped) db.oauthClient oauthClient →
      (linkResource client.clientId (request.url resource) now :
        AuthOperation ids Unit).Yields .solo mayFail
        (fun _ db' => ∃ oauthClient oauthClientResource,
          db' = { db with oauthClient, oauthClientResource } ∧
          db.SavesClients request [(client, resource)] db') { db with oauthClient } := by
    intro oauthClient hclient
    refine (linkResource_solo now (h.imp_right fun hhas => hhas.2)).mono ?_
    rintro _ db' ⟨links, rfl, hlinked, hkept, hsame⟩
    refine ⟨oauthClient, links, rfl, ?_, ?_, ?_⟩
    · intro p hp
      obtain rfl := List.mem_singleton.mp hp
      exact ⟨hclient.stored, hlinked⟩
    · rintro other r hne ⟨⟨c, hc, hid, hregistered⟩, l, hl, hlinks⟩
      refine ⟨⟨c, hclient.others c hc fun heq => ?_, hid, hregistered⟩, l, hkept l hl,
        hlinks⟩
      exact hne (client, resource) List.mem_cons_self (hid.symm.trans heq)
    · intro hall
      obtain ⟨hc, hl⟩ := hall (client, resource) List.mem_cons_self
      exact ⟨hclient.again hc, hsame hl⟩
  refine yields_bind (solo_read ?_)
  split
  · next hfind =>
    have hnone := Table.find?_eq_none.mp hfind
    have hfail : mayFail := by
      refine h.resolve_right ?_
      rintro ⟨⟨c, hc, hid, -⟩, -⟩
      simpa [hid] using hnone c hc
    refine yields_bind (solo_write ?_ fun _ _ _ => hfail)
    intro j db' hrun
    obtain ⟨t, hinsert, rfl⟩ := insertRow_ok hrun
    exact hlink t (.insert (fun r hr => of_decide_eq_false (hnone r hr)) hinsert rfl ⟨rfl, rfl⟩)
  · next row hfind =>
    have hid : row.clientId = client.clientId := by simpa using Table.find?_prop hfind
    split
    · next howner =>
      refine yields_bind (yields_fail (h.resolve_right ?_))
      rintro ⟨⟨c, hc, hidc, hregistered⟩, -⟩
      obtain rfl := db.oauthClient.eq_of_clash (Table.find?_mem hfind) hc
        (.inr (hid.trans hidc.symm))
      exact howner hregistered.1
    · next howner =>
      refine yields_bind (solo_write ?_ fun _ _ herror => absurd herror (by simp))
      intro j db' hrun
      obtain rfl := Except.ok.inj hrun
      refine hlink _ (.update (fun a b hab => .inr hab) (fun _ => rfl) (Table.find?_mem hfind) hid
        ⟨not_not.mp howner, rfl⟩ ?_)
      rintro c ⟨-, hc⟩
      show (client.rewrite c.updatedAt c).unstamped = c.unstamped
      rw [hc]

theorem saveClients_solo {request : ProvisionRequest}
    {clients : List (FirstPartyClient × FirstPartyResource)} (now : Instant)
    (hdistinct : clients.Pairwise fun p q => p.1.clientId ≠ q.1.clientId)
    (h : mayFail ∨ ∀ p ∈ clients, db.HasClient p.1 (request.url p.2)) :
    (clients.forM fun p => provisionStaticClient p.1 (request.url p.2) now :
      AuthOperation ids PUnit).Yields .solo mayFail
      (fun _ db' => ∃ oauthClient oauthClientResource,
        db' = { db with oauthClient, oauthClientResource } ∧
        db.SavesClients request clients db') db := by
  induction clients generalizing db with
  | nil =>
    refine solo_pure ⟨_, _, rfl, fun p hp => absurd hp (by simp), fun _ _ _ hhas => hhas, ?_⟩
    exact fun _ => ⟨rfl, rfl⟩
  | cons p clients ih =>
    obtain ⟨hp, hclients⟩ := List.pairwise_cons.mp hdistinct
    refine yields_bind ((provisionStaticClient_solo now
      (h.imp_right fun hall => hall p List.mem_cons_self)).mono ?_)
    rintro _ db₁ ⟨_, _, rfl, hfirst⟩
    -- the clients that follow are the same before and after the first
    have hlater : ∀ q ∈ clients, ∀ q' ∈ [p], q.1.clientId ≠ q'.1.clientId := by
      intro q hq q' hq'
      obtain rfl := List.mem_singleton.mp hq'
      exact (hp q hq).symm
    refine (ih hclients (h.imp_right fun hall q hq => hfirst.others _ _ (hlater q hq)
      (hall q (List.mem_cons_of_mem _ hq)))).mono ?_
    rintro _ db₂ ⟨oauthClient, oauthClientResource, rfl, hrest⟩
    refine ⟨oauthClient, oauthClientResource, rfl, ?_, ?_, fun hall => ?_⟩
    · intro q hq
      rcases List.mem_cons.mp hq with rfl | hq
      · exact hrest.others _ _ hp (hfirst.saved q List.mem_cons_self)
      · exact hrest.saved q hq
    · intro client resource hne hhas
      refine hrest.others _ _ (fun q hq => hne q (List.mem_cons_of_mem _ hq)) ?_
      refine hfirst.others _ _ (fun q hq => ?_) hhas
      obtain rfl := List.mem_singleton.mp hq
      exact hne _ List.mem_cons_self
    · obtain ⟨hrows, hlinks⟩ := hfirst.again fun q hq => by
        obtain rfl := List.mem_singleton.mp hq
        exact hall _ List.mem_cons_self
      obtain ⟨hrows', hlinks'⟩ := hrest.again fun q hq =>
        hfirst.others _ _ (hlater q hq) (hall q (List.mem_cons_of_mem _ hq))
      exact ⟨hrows'.trans hrows, hlinks'.trans hlinks⟩

/-- The resources of the server, as a deployment leaves them. -/
def AuthDb.HasResources (db : AuthDb) (request : ProvisionRequest) : Prop :=
  (∃ r ∈ db.oauthResource, r.identifier = request.restResource ∧
    r.Configured "AgentMail REST") ∧
    ∃ r ∈ db.oauthResource, r.identifier = request.mcpResource ∧ r.Configured "AgentMail MCP"

theorem provisionStaticResources_solo {request : ProvisionRequest} (now : Instant)
    (hdistinct : request.restResource ≠ request.mcpResource)
    (h : mayFail ∨ db.HasResources request) :
    (provisionStaticResources request now : AuthOperation ids Unit).Yields .solo mayFail
      (fun _ db' => ∃ oauthResource, db' = { db with oauthResource } ∧
        db'.HasResources request ∧
        (db.HasResources request →
          oauthResource.rows.map (·.unstamped) = db.oauthResource.rows.map (·.unstamped)))
            db := by
  refine yields_bind ((upsertOwnedResource_solo now (h.imp_right fun hall => ?_)).mono ?_)
  · obtain ⟨⟨r, hr, hid, -⟩, -⟩ := hall
    exact ⟨r, hr, hid⟩
  rintro _ db₁ ⟨rest, rfl, hrest⟩
  refine (upsertOwnedResource_solo now (h.imp_right fun hall => ?_)).mono ?_
  · obtain ⟨-, r, hr, hid, -⟩ := hall
    exact ⟨r, hrest.others r hr fun heq => hdistinct (heq.symm.trans hid), hid⟩
  rintro _ db₂ ⟨oauthResource, rfl, hmcp⟩
  refine ⟨oauthResource, rfl, ⟨?_, hmcp.stored⟩, fun hall => ?_⟩
  · obtain ⟨r, hr, hid, hconfigured⟩ := hrest.stored
    exact ⟨r, hmcp.others r hr fun heq => hdistinct (hid.symm.trans heq), hid, hconfigured⟩
  · obtain ⟨hfirst, r, hr, hid, hconfigured⟩ := hall
    have hstays : r ∈ rest := hrest.others r hr fun heq => hdistinct (heq.symm.trans hid)
    exact (hmcp.again ⟨r, hstays, hid, hconfigured⟩).trans (hrest.again hfirst)

variable [Unicode]

/-- The operator exists, with the password of the request. -/
structure AuthDb.HasOperator (db : AuthDb) (passwords : PasswordLibrary)
    (request : ProvisionRequest) (operatorId : String) : Prop where
  user : ∃ email, request.lookupEmail = some email ∧ ∃ u ∈ db.user, u.id = operatorId ∧
    u.email = email.val ∧ u.name = "operator" ∧ u.emailVerified = true
  account : ∃ a hash, db.credentialAccount operatorId = some a ∧ a.password = some hash ∧
    passwords.verifyPassword hash request.password = true

/-- What the batch knows when it is sent. -/
structure OperatorIdentity.Reads (input : OperatorIdentity) (passwords : PasswordLibrary)
    (request : ProvisionRequest) (db : AuthDb) : Prop where
  email : ∃ email, request.lookupEmail = some email ∧ input.operatorEmail = email.val
  userExists : input.userExists = (db.user.find? (·.email = input.operatorEmail)).isSome
  operatorId : ∀ u, db.user.find? (·.email = input.operatorEmail) = some u →
    input.operatorId = u.id
  account : input.account = db.credentialAccount input.operatorId
  verifies : passwords.verifyPassword input.passwordHash request.password = true
  unchanged : input.passwordChanged = false →
    ∃ a, input.account = some a ∧ a.password = some input.passwordHash
  current : ∀ a hash, input.account = some a → a.password = some hash →
    passwords.verifyPassword hash request.password = true → input.passwordChanged = false

namespace OperatorIdentity

variable {input : OperatorIdentity} {passwords : PasswordLibrary} {request : ProvisionRequest}
  {db' : AuthDb}

theorem Reads.findsUser (h : input.Reads passwords request db) : input.FindsUser db := by
  intro hexists
  obtain ⟨u, hu⟩ := Option.isSome_iff_exists.mp (h.userExists.symm.trans hexists)
  exact ⟨u, Table.find?_mem hu, (h.operatorId u hu).symm, by simpa using Table.find?_prop hu⟩

theorem Reads.findsAccount (h : input.Reads passwords request db) : input.FindsAccount db := by
  intro a ha
  have hfind := h.account.symm.trans ha
  have hprop := Table.find?_prop hfind
  simp only [Bool.and_eq_true, decide_eq_true_eq] at hprop
  exact ⟨a, Table.find?_mem hfind, rfl, hprop.1⟩

omit [Unicode] in
theorem saveAccount_password (h : batch input.saveAccount db = .ok db')
    (haccount : input.account = db.credentialAccount input.operatorId)
    (hunchanged : input.passwordChanged = false →
      ∃ a, input.account = some a ∧ a.password = some input.passwordHash) :
    ∃ a, db'.credentialAccount input.operatorId = some a ∧
      a.password = some input.passwordHash := by
  unfold saveAccount at h
  split at h
  · next hnone =>
    obtain ⟨db₁, hinserted, hnil⟩ := batch_cons.mp h
    obtain rfl := Except.ok.inj hnil
    obtain ⟨account, hinsert, rfl⟩ := insertRow_ok hinserted
    exact ⟨_, Table.find?_insert? (haccount.symm.trans hnone) hinsert (by simp), rfl⟩
  next stored hstored =>
  split at h
  · obtain ⟨db₁, hupdate, hnil⟩ := batch_cons.mp h
    obtain rfl := Except.ok.inj hnil
    obtain rfl := Except.ok.inj hupdate
    have hfind := haccount.symm.trans hstored
    refine ⟨{ stored with password := some input.passwordHash, updatedAt := input.now },
      ?_, rfl⟩
    unfold AuthDb.credentialAccount at hfind ⊢
    dsimp only
    rw [Table.find?_update]
    · rw [hfind]
      simp
    · exact fun _ => rfl
  · next hchanged =>
    obtain rfl := Except.ok.inj h
    obtain ⟨a, ha, hpassword⟩ := hunchanged (by simpa using hchanged)
    exact ⟨a, haccount.symm.trans ha, hpassword⟩

/-- Where the operator is as it has to be, the batch only touches the user. -/
theorem statements_again (h : input.Reads passwords request db) {operatorId : String}
    (hdb : db.HasOperator passwords request operatorId) :
    input.operatorId = operatorId ∧ ∃ user, batch input.statements db = .ok { db with user } ∧
      user.rows.map (·.unstamped) = db.user.rows.map (·.unstamped) := by
  obtain ⟨⟨email, hemail, u, hu, rfl, hstored, hname, hverified⟩, a, hash, ha, hhash,
      hcurrent⟩ := hdb
  obtain ⟨email', hemail', hinput⟩ := h.email
  obtain rfl : email = email' := Option.some.inj (hemail.symm.trans hemail')
  have hfind : db.user.find? (·.email = input.operatorEmail) = some u :=
    Table.find?_eq_some_of_mem (fun a b ha hb => Or.inr
      ((of_decide_eq_true ha).trans (of_decide_eq_true hb).symm)) hu
      (decide_eq_true (hstored.trans hinput.symm))
  have hid := h.operatorId u hfind
  have hexists : input.userExists = true := by rw [h.userExists, hfind]; rfl
  have haccount : input.account = some a := h.account.trans (hid ▸ ha)
  have hunchanged := h.current a hash haccount hhash hcurrent
  refine ⟨hid, db.user.update (·.id = input.operatorId)
    (fun u => { u with name := "operator", emailVerified := true, updatedAt := input.now })
    fun _ => rfl, ?_, ?_⟩
  · simp [statements, saveUser, saveAccount, endGrants, hexists, haccount, hunchanged, batch]
  · rw [Table.update_rows, List.map_map]
    refine List.map_congr_left fun r hr => ?_
    by_cases hr' : r.id = input.operatorId
    · -- the row of the operator has these columns already
      obtain rfl := db.user.eq_of_clash hr hu (.inl (hr'.trans hid))
      simp [hr', UserRow.unstamped, hname, hverified]
    · simp [hr']

end OperatorIdentity

theorem persistOperatorIdentity_solo {input : OperatorIdentity} {passwords : PasswordLibrary}
    {request : ProvisionRequest} (hreads : input.Reads passwords request db)
    (h : mayFail ∨ ∃ operatorId, db.HasOperator passwords request operatorId) :
    (persistOperatorIdentity input : AuthOperation ids Unit).Yields .solo mayFail
      (fun _ db' => db'.HasOperator passwords request input.operatorId ∧
        db'.oauthResource = db.oauthResource ∧ db'.oauthClient = db.oauthClient ∧
        db'.oauthClientResource = db.oauthClientResource ∧
        ∀ operatorId, db.HasOperator passwords request operatorId →
          input.operatorId = operatorId ∧ db'.unstamped = db.unstamped) db := by
  refine solo_write (fun _ db' hrun => ?_) fun _ error hrun => h.resolve_right ?_
  · obtain ⟨email, hemail, hinput⟩ := hreads.email
    obtain ⟨user, account, huser, hsave, hdb'⟩ := input.statements_ok hrun hreads.findsAccount
    have hfields : db'.account = account ∧ db'.oauthResource = db.oauthResource ∧
        db'.oauthClient = db.oauthClient ∧ db'.oauthClientResource = db.oauthClientResource := by
      rw [hdb']
      split <;> exact ⟨rfl, rfl, rfl, rfl⟩
    refine ⟨⟨⟨email, hemail, ?_⟩, ?_⟩, hfields.2.1, hfields.2.2.1, hfields.2.2.2, ?_⟩
    · obtain ⟨u, hu, hid, hstored, hnamed⟩ :=
        OperatorIdentity.statements_user hrun hreads.findsAccount hreads.findsUser
      exact ⟨u, hu, hid, hstored.trans hinput, hnamed⟩
    · obtain ⟨a, ha, hpassword⟩ := OperatorIdentity.saveAccount_password hsave hreads.account
        hreads.unchanged
      refine ⟨a, input.passwordHash, ?_, hpassword, hreads.verifies⟩
      unfold AuthDb.credentialAccount at ha ⊢
      rwa [hfields.1]
    · intro operatorId hdb
      obtain ⟨hid, user', hagain, hrows⟩ := OperatorIdentity.statements_again hreads hdb
      obtain rfl := Except.ok.inj (hrun.symm.trans hagain)
      exact ⟨hid, AuthDb.unstamped_eq hrows rfl rfl⟩
  · rintro ⟨operatorId, hdb⟩
    obtain ⟨-, user', hagain, -⟩ := OperatorIdentity.statements_again hreads hdb
    exact absurd (hrun.symm.trans hagain) (by simp)

omit [Unicode] in
theorem nextPasswordHash_solo (passwords : PasswordLibrary) (password : String)
    (existingHash : Option String) :
    (nextPasswordHash passwords password existingHash : AuthOperation ids PasswordHash).Yields
      .solo mayFail (fun next db' => db' = db ∧
        passwords.verifyPassword next.hash password = true ∧
        (next.changed = false → existingHash = some next.hash) ∧
        ∀ hash, existingHash = some hash → passwords.verifyPassword hash password = true →
          next.changed = false) db := by
  unfold nextPasswordHash
  split
  · next hash hfilter =>
    obtain ⟨hexisting, hcurrent⟩ := Option.filter_eq_some_iff.mp hfilter
    exact solo_pure ⟨rfl, hcurrent, fun _ => hexisting, fun _ _ _ => rfl⟩
  · next hfilter =>
    refine yields_bind (solo_take fun i => solo_pure ⟨rfl, passwords.verify_hashPassword _ _,
      fun hchanged => absurd hchanged (by simp), fun hash hexisting hcurrent => ?_⟩)
    rw [hexisting] at hfilter
    exact absurd hfilter (by simp [hcurrent])

/-- Everything is as a deployment leaves it. -/
structure AuthDb.Provisioned (db : AuthDb) (passwords : PasswordLibrary)
    (request : ProvisionRequest) (operatorId : String) : Prop where
  operator : db.HasOperator passwords request operatorId
  resources : db.HasResources request
  clients : ∀ p ∈ firstPartyClients, db.HasClient p.1 (request.url p.2)

omit [Unicode] in
theorem firstPartyClients_distinct :
    firstPartyClients.Pairwise fun p q => p.1.clientId ≠ q.1.clientId := by
  simp [firstPartyClients, CURSOR_GROK_BOT_CLIENT_ID, UMAIL_CLI_CLIENT_ID]

/-- A deployment on its own leaves everything as it has to be. Where everything
    was, it neither fails nor changes more than times of update. -/
theorem provisionAuth_solo {passwords : PasswordLibrary} {request : ProvisionRequest}
    (hdistinct : request.restResource ≠ request.mcpResource)
    (h : mayFail ∨ ∃ operatorId, db.Provisioned passwords request operatorId) :
    (provisionAuth passwords request : AuthOperation ids String).Yields .solo mayFail
      (fun operatorId db' => db'.Provisioned passwords request operatorId ∧
        ∀ before, db.Provisioned passwords request before →
          operatorId = before ∧ db'.unstamped = db.unstamped) db := by
  unfold provisionAuth
  split
  · next hnone =>
    refine yields_fail (h.resolve_right ?_)
    rintro ⟨operatorId, ⟨⟨email, hemail, -⟩, -⟩, -, -⟩
    exact absurd (hnone.symm.trans hemail) (by simp)
  next email hemail =>
  refine yields_bind (solo_take fun i => ?_)
  refine yields_bind (solo_read ?_)
  have hid : (operatorIdOf (db.user.find? (·.email = email.val)) :
      AuthOperation ids String).Yields .solo mayFail (fun operatorId db' => db' = db ∧
        ∀ u, db.user.find? (·.email = email.val) = some u → operatorId = u.id) db := by
    cases db.user.find? (·.email = email.val) with
    | none => exact solo_take fun _ => ⟨rfl, fun u hu => absurd hu (by simp)⟩
    | some u => exact solo_pure ⟨rfl, fun u' hu => congrArg UserRow.id (Option.some.inj hu)⟩
  refine yields_bind (hid.mono ?_)
  rintro operatorId db ⟨rfl, hoperatorId⟩
  refine yields_bind (solo_read ?_)
  refine yields_bind ((nextPasswordHash_solo _ _ _).mono ?_)
  rintro next db ⟨rfl, hverifies, hunchanged, hcurrent⟩
  refine yields_bind ((persistOperatorIdentity_solo ?_ (h.imp_right fun hdb =>
    hdb.imp fun _ hdb => hdb.operator)).mono ?_)
  · refine ⟨⟨email, hemail, rfl⟩, rfl, hoperatorId, rfl, hverifies, fun hsame => ?_, ?_⟩
    · exact Option.bind_eq_some_iff.mp (hunchanged hsame)
    · intro a hash ha hhash hverified
      exact hcurrent hash (Option.bind_eq_some_iff.mpr ⟨a, ha, hhash⟩) hverified
  rintro _ db₁ ⟨hoperator, hresource, hclient, hlink, hagain⟩
  have hresources : db.HasResources request → db₁.HasResources request := by
    unfold AuthDb.HasResources
    rw [hresource]
    exact id
  have hclients : (∀ p ∈ firstPartyClients, db.HasClient p.1 (request.url p.2)) →
      ∀ p ∈ firstPartyClients, db₁.HasClient p.1 (request.url p.2) := by
    unfold AuthDb.HasClient
    rw [hclient, hlink]
    exact id
  refine yields_bind ((provisionStaticResources_solo i.now hdistinct (h.imp_right ?_)).mono ?_)
  · rintro ⟨_, hdb⟩
    exact hresources hdb.resources
  rintro _ _ ⟨oauthResource, rfl, hconfigured, hresourcesAgain⟩
  refine yields_bind ((saveClients_solo i.now firstPartyClients_distinct
    (h.imp_right ?_)).mono ?_)
  · rintro ⟨_, hdb⟩
    exact hclients hdb.clients
  rintro _ _ ⟨oauthClient, oauthClientResource, rfl, hsaves⟩
  refine solo_pure
    ⟨⟨⟨hoperator.user, hoperator.account⟩, hconfigured, hsaves.saved⟩, ?_⟩
  intro before hdb
  obtain ⟨hid, hsame⟩ := hagain before hdb.operator
  obtain ⟨hrows, hlinks⟩ := hsaves.again (hclients hdb.clients)
  refine ⟨hid, Eq.trans ?_ hsame⟩
  obtain rfl : oauthClientResource = db₁.oauthClientResource := hlinks
  exact AuthDb.unstamped_eq rfl (hresourcesAgain (hresources hdb.resources)) hrows

/-- **Deploying again.** A deployment that ends on its own, whatever state
    earlier ones left behind, leaves the operator with its password, and the
    resources and clients registered. Deploying once more always succeeds with
    the same operator, and changes nothing but times of update: every session,
    token and grant stays. -/
theorem provisioning_again {passwords : PasswordLibrary} {request : ProvisionRequest}
    (hdistinct : request.restResource ≠ request.mcpResource) {db db₁ : AuthDb}
    {inputs : Nat → AuthInput ids} {operatorId : String}
    (h : (provisionAuth passwords request : AuthOperation ids String).run.complete db inputs =
      (.ok operatorId, db₁)) :
    db₁.Provisioned passwords request operatorId ∧ ∀ inputs', ∃ db₂,
      (provisionAuth passwords request : AuthOperation ids String).run.complete db₁ inputs' =
        (.ok operatorId, db₂) ∧ db₂.unstamped = db₁.unstamped := by
  let deploy : AuthOperation ids String := provisionAuth passwords request
  have hfirst : deploy.Yields .solo True (fun operatorId db' =>
      db'.Provisioned passwords request operatorId) db :=
    (provisionAuth_solo hdistinct (.inl trivial)).mono fun _ _ hdb => hdb.1
  have hprovisioned : db₁.Provisioned passwords request operatorId := by
    have hend := Proc.Ensures.complete hfirst inputs
    rw [h] at hend
    exact hend.1 operatorId rfl
  refine ⟨hprovisioned, fun inputs' => ?_⟩
  have hsecond : deploy.Yields .solo False (fun id db' =>
      id = operatorId ∧ db'.unstamped = db₁.unstamped) db₁ :=
    (provisionAuth_solo hdistinct (.inr ⟨operatorId, hprovisioned⟩)).mono
      fun _ _ hdb => hdb.2 operatorId hprovisioned
  have hend := Proc.Ensures.complete hsecond inputs'
  cases hresult : deploy.run.complete db₁ inputs' with
  | mk result db₂ =>
    rw [hresult] at hend
    cases result with
    | error failure => exact (hend.2 failure rfl).elim
    | ok id =>
      obtain ⟨rfl, hsame⟩ := hend.1 id rfl
      exact ⟨db₂, rfl, hsame⟩

end alone

/-! ### A sample deployment -/

namespace Sample

def serverNames : IdNames where
  consent _ := ("client-1", some "operator")
  policy id := id

def samplePasswords : PasswordLibrary where
  hashPassword salt password := salt ++ password
  verifyPassword hash password := password.toList.isSuffixOf hash.toList
  verify_hashPassword salt password := by
    rw [List.isSuffixOf_iff_suffix, String.toList_append]
    exact List.suffix_append _ _

def provisionRequest (password : String) : ProvisionRequest where
  operatorEmail := "Operator@example.com"
  password
  restResource := "https://mail.example.com"
  mcpResource := "https://mail.example.com/mcp"

/-- What the `n`-th call gets. -/
def deployInput (n : Nat) : AuthInput serverNames where
  randomId := String.ofList (List.replicate (n + 1) 'x')
  policyId consentId := ⟨consentId, rfl⟩
  now := 1000 + n
  salt := "salt-"

end Sample

section sample
open Sample Sample.External

theorem provisioning_again_sample : ∃ operatorId db₁ db₂,
    (provisionAuth samplePasswords (provisionRequest "first")).run.complete .empty deployInput =
      (.ok operatorId, db₁) ∧
    (provisionAuth samplePasswords (provisionRequest "first")).run.complete db₁ deployInput =
      (.ok operatorId, db₂) ∧ db₂.unstamped = db₁.unstamped := by
  have hdone : ((provisionAuth samplePasswords (provisionRequest "first")).run.complete .empty
      deployInput).1.toOption.isSome = true := by decide +kernel
  cases hfirst : (provisionAuth samplePasswords (provisionRequest "first")).run.complete .empty
      deployInput with
  | mk result db₁ =>
    cases result with
    | error failure =>
      rw [hfirst] at hdone
      exact absurd hdone (by simp [Except.toOption])
    | ok operatorId =>
      have hdistinct : (provisionRequest "first").restResource ≠
          (provisionRequest "first").mcpResource := by decide
      obtain ⟨db₂, hsecond, hsame⟩ := (provisioning_again hdistinct hfirst).2 deployInput
      exact ⟨operatorId, db₁, db₂, rfl, hsecond, hsame⟩

end sample

end Umail
