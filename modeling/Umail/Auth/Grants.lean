import Mathlib.Data.String.Basic
import Umail.Auth.Database
import Umail.Contract.ExternalAddress

/-! # Grants

  `makeAccess` of `apps/server/src/auth/access.ts` and `saveConsentPolicy` of
  `options.ts`: which MCP clients have access, and how the operator gives it,
  changes it and takes it back.

  A client has access while the consent of the operator has a policy. Consents
  are made by Better Auth alone, so a request can end access, and can only
  give it where it writes a policy.
-/

namespace Umail

open Lts Relational

section grants
variable [Unicode] {ids : IdNames}

/-! ### Queries -/

/-- The operator's grant to a client. -/
inductive McpGrant where
  | none
  | no_policy
  | policy (policy : PrincipalPolicy)

/-- One row of the clients page. -/
structure ClientGrant where
  clientId : String
  name : Option String
  consentId : Option String
  policy : Option PrincipalPolicy

/-- `GrantRow` -/
structure GrantRow where
  clientId : String
  name : Option String
  consentId : Option String
  policy : Option String
  deriving DecidableEq

/-- The policy in a row with this text. -/
def storedPolicy (policy : String) : Option PrincipalPolicy :=
  decodeStoredPolicy (.object [("policy", .string policy)])

/-- `c LEFT JOIN mcpPolicy p ON p.consentId = c.id` -/
def AuthDb.policyOf (db : AuthDb) (c : OauthConsentRow) : Option String :=
  (db.mcpPolicy.find? (·.consentId = c.id)).map (·.policy)

/-- The consent that the operator gave to the client. -/
def AuthDb.consentOf (db : AuthDb) (operatorId clientId : String) : Option OauthConsentRow :=
  db.oauthConsent.find? fun c => c.clientId = clientId && c.userId = some operatorId

def AuthDb.mcpGrant (db : AuthDb) (operatorId clientId : String) : McpGrant :=
  match db.consentOf operatorId clientId with
  | none => .none
  | some c =>
    match (db.policyOf c).bind storedPolicy with
    | none => .no_policy
    | some policy => .policy policy

def AuthDb.clientName (db : AuthDb) (clientId : String) : Option String :=
  (db.oauthClient.find? (·.clientId = clientId)).bind (·.name)

/-- The consents of the operator. -/
def AuthDb.consentRows (db : AuthDb) (operatorId : String) : List GrantRow :=
  (db.oauthConsent.select (·.userId = some operatorId)).map fun c =>
    { clientId := c.clientId, name := db.clientName c.clientId
      consentId := some c.id, policy := db.policyOf c }

/-- The clients that only hold refresh tokens. -/
def AuthDb.tokenRows (db : AuthDb) (operatorId : String) : List GrantRow :=
  (db.oauthRefreshToken.select fun t => t.userId = some operatorId && t.revoked = none &&
      (db.consentRows operatorId).all (·.clientId ≠ t.clientId)).map fun t =>
    { clientId := t.clientId, name := db.clientName t.clientId, consentId := none, policy := none }

/-- The columns of a row, for `ORDER BY`; `NULL` comes before every text. -/
def GrantRow.columns (row : GrantRow) : List (List String) :=
  [[row.clientId], row.name.toList, row.consentId.toList, row.policy.toList]

/-- `UNION .. ORDER BY clientId`. A `UNION` drops duplicates by sorting on all
    columns, so the rows of one client are in the order of the other columns. -/
def AuthDb.grantRows (db : AuthDb) (operatorId : String) : List GrantRow :=
  (db.consentRows operatorId ++ db.tokenRows operatorId).dedup.insertionSort
    fun a b => a.columns ≤ b.columns

def AuthDb.list (db : AuthDb) (operatorId : String) : List ClientGrant :=
  (db.grantRows operatorId).map fun row =>
    { clientId := row.clientId, name := row.name
      consentId := row.consentId, policy := row.policy.bind storedPolicy }

/-- The batch of `revoke`. -/
def AuthDb.revoke (db : AuthDb) (operatorId clientId : String) : AuthDb :=
  { db with
    oauthAccessToken := db.oauthAccessToken.delete fun t =>
      t.clientId = clientId && t.userId = some operatorId
    oauthRefreshToken := db.oauthRefreshToken.delete fun t =>
      t.clientId = clientId && t.userId = some operatorId }.deleteConsents fun c =>
        c.clientId = clientId && c.userId = some operatorId

/-! ### Operations -/

variable (operatorId : String)

def mcpGrant (clientId : String) : AuthOperation ids McpGrant :=
  authRead fun db => db.mcpGrant operatorId clientId

def listGrants : AuthOperation ids (List ClientGrant) := authRead fun db => db.list operatorId

/-- False when the operator has no such consent. -/
def setPolicy (consentId : String) (policy : PrincipalPolicy) : AuthOperation ids Bool := do
  let consent ← authRead fun db =>
    db.oauthConsent.find? fun c => c.id = consentId && c.userId = some operatorId
  if consent.isNone then return false
  authWrite fun db i => db.upsertPolicy {
    id := i.policyId consentId, consentId, policy := encodePolicy policy }
  return true

def clientName (clientId : String) : AuthOperation ids (Option String) :=
  authRead fun db => db.clientName clientId

/-- Ends every grant that the client holds. -/
def revoke (clientId : String) : AuthOperation ids Unit :=
  authWrite fun db _ => .ok (db.revoke operatorId clientId)

/-- `adapter.create` of a policy. -/
def createPolicy (consentId : String) (policy : PrincipalPolicy) : AuthOperation ids Unit :=
  authWrite fun db i => db.insertPolicy {
    id := i.policyId consentId, consentId, policy := encodePolicy policy }

/-- `adapter.update` of a policy. -/
def updatePolicy (id : String) (policy : PrincipalPolicy) : AuthOperation ids Unit :=
  authWrite fun db _ => .ok (db.updatePolicies (·.id = id) (encodePolicy policy))

/-- Writes the policy chosen on the consent screen for the consent just given
    to the client that the signed query names. -/
def saveConsentPolicy (clientId : Option String) (policy : PrincipalPolicy) :
    AuthOperation ids Unit :=
  match clientId with
  | none => pure ()
  | some clientId => do
    let consent ← authRead fun db => db.consentOf operatorId clientId
    match consent with
    | none => return ()
    | some consent =>
      let existing ← authRead fun db => db.mcpPolicy.find? (·.consentId = consent.id)
      match existing with
      | none => createPolicy consent.id policy
      | some existing => updatePolicy existing.id policy

/-! ### What the requests keep -/

section keeps

/-- The ids say what is so. -/
structure AuthDb.Named (ids : IdNames) (db : AuthDb) : Prop where
  consents : ∀ c ∈ db.oauthConsent, ids.consent c.id = (c.clientId, c.userId)
  policies : ∀ p ∈ db.mcpPolicy, ids.policy p.id = p.consentId

/-- The policy of a row was chosen for the client of its consent. -/
def IdNames.Written (ids : IdNames) (Chooses : String → PrincipalPolicy → Prop)
    (p : McpPolicyRow) : Prop :=
  ids.policy p.id = p.consentId ∧
    ∃ policy, p.policy = encodePolicy policy ∧ Chooses (ids.consent p.consentId).1 policy

/-- Nothing that the user signed in to or gave is left. -/
structure AuthDb.LoggedOut (db : AuthDb) (userId : String) : Prop where
  sessions : ∀ s ∈ db.session, s.userId ≠ userId
  accessTokens : ∀ t ∈ db.oauthAccessToken, t.userId ≠ some userId
  refreshTokens : ∀ t ∈ db.oauthRefreshToken, t.userId ≠ some userId
  consents : ∀ c ∈ db.oauthConsent, c.userId ≠ some userId
  verifications : db.verification = .empty
  deviceCodes : db.deviceCode = .empty

/-- Users keep their id and email, and accounts their id and user. -/
structure AuthDb.Identities (db db' : AuthDb) : Prop where
  users : ∀ u ∈ db.user, ∃ u' ∈ db'.user, u'.id = u.id ∧ u'.email = u.email
  accounts : ∀ a ∈ db.account, ∃ a' ∈ db'.account, a'.id = a.id ∧ a'.userId = a.userId

/-- What a request does: it makes no consent, writes only policies that it
    chooses, and changes the password of an account only if it logs the user
    out. -/
structure AuthDb.Keeps (ids : IdNames) (Chooses : String → PrincipalPolicy → Prop)
    (db db' : AuthDb) : Prop where
  consents : ∀ c ∈ db'.oauthConsent, c ∈ db.oauthConsent
  policies : ∀ p ∈ db'.mcpPolicy, p ∈ db.mcpPolicy ∨ ids.Written Chooses p
  users : ∀ u ∈ db.user, ∃ u' ∈ db'.user, u'.id = u.id ∧ u'.email = u.email
  accounts : ∀ a ∈ db.account, ∃ a' ∈ db'.account, a'.id = a.id ∧ a'.userId = a.userId ∧
    (a'.password = a.password ∨ db'.LoggedOut a.userId)

variable {Chooses : String → PrincipalPolicy → Prop} {db db' : AuthDb}

omit [Unicode] in
theorem AuthDb.Identities.refl (db : AuthDb) : db.Identities db :=
  ⟨fun u hu => ⟨u, hu, rfl, rfl⟩, fun a ha => ⟨a, ha, rfl, rfl⟩⟩

omit [Unicode] in
theorem AuthDb.Identities.trans {db'' : AuthDb} (h : db.Identities db')
    (h' : db'.Identities db'') : db.Identities db'' where
  users u hu := by
    obtain ⟨u', hu', hid', hemail'⟩ := h.users u hu
    obtain ⟨u'', hu'', hid'', hemail''⟩ := h'.users u' hu'
    exact ⟨u'', hu'', hid''.trans hid', hemail''.trans hemail'⟩
  accounts a ha := by
    obtain ⟨a', ha', hid', huser'⟩ := h.accounts a ha
    obtain ⟨a'', ha'', hid'', huser''⟩ := h'.accounts a' ha'
    exact ⟨a'', ha'', hid''.trans hid', huser''.trans huser'⟩

theorem AuthDb.Keeps.identities (h : db.Keeps ids Chooses db') : db.Identities db' where
  users := h.users
  accounts a ha := by
    obtain ⟨a', ha', hid, huser, -⟩ := h.accounts a ha
    exact ⟨a', ha', hid, huser⟩

/-- A request that leaves the users and their accounts alone. -/
theorem AuthDb.Keeps.of_grants (hconsents : ∀ c ∈ db'.oauthConsent, c ∈ db.oauthConsent)
    (hpolicies : ∀ p ∈ db'.mcpPolicy, p ∈ db.mcpPolicy ∨ ids.Written Chooses p)
    (husers : db'.user = db.user) (haccounts : db'.account = db.account) :
    db.Keeps ids Chooses db' where
  consents := hconsents
  policies := hpolicies
  users u hu := ⟨u, husers ▸ hu, rfl, rfl⟩
  accounts a ha := ⟨a, haccounts ▸ ha, rfl, rfl, .inl rfl⟩

theorem AuthDb.Keeps.refl (db : AuthDb) : db.Keeps ids Chooses db :=
  .of_grants (fun _ => id) (fun _ => .inl) rfl rfl

theorem AuthDb.Keeps.named (h : db.Keeps ids Chooses db') (hdb : db.Named ids) : db'.Named ids where
  consents c hc := hdb.consents c (h.consents c hc)
  policies p hp := by
    rcases h.policies p hp with hold | hnew
    · exact hdb.policies p hold
    · exact hnew.1

theorem AuthDb.revoke_keeps (db : AuthDb) (operatorId clientId : String) :
    db.Keeps ids Chooses (db.revoke operatorId clientId) :=
  .of_grants (fun _ hc => (Table.mem_delete.mp hc).1)
    (fun _ hp => .inl (AuthDb.mem_withConsents hp)) rfl rfl

theorem AuthDb.upsertPolicy_keeps (hdb : db.Named ids) {row : McpPolicyRow}
    (hrow : ids.Written Chooses row) (h : db.upsertPolicy row = .ok db') :
    db.Keeps ids Chooses db' := by
  obtain ⟨-, hconsents, husers, haccounts, hpolicies⟩ := AuthDb.upsertPolicy_ok h
  refine .of_grants (fun c hc => hconsents ▸ hc) (fun p hp => ?_) husers haccounts
  rcases hpolicies p hp with hold | rfl | ⟨old, hold, hsame, rfl⟩
  · exact .inl hold
  · exact .inr hrow
  · -- the row that is there keeps its id, which names the same consent
    refine .inr ⟨hdb.policies old hold, ?_⟩
    obtain ⟨-, policy, htext, hchosen⟩ := hrow
    exact ⟨policy, htext, hsame ▸ hchosen⟩

theorem AuthDb.insertPolicy_keeps {row : McpPolicyRow} (hrow : ids.Written Chooses row)
    (h : db.insertPolicy row = .ok db') : db.Keeps ids Chooses db' := by
  obtain ⟨-, hconsents, husers, haccounts, hrows⟩ := AuthDb.insertPolicy_ok h
  refine .of_grants (fun c hc => hconsents ▸ hc) (fun p hp => ?_) husers haccounts
  rw [← Table.mem_rows, hrows, List.mem_append, List.mem_singleton] at hp
  rcases hp with hold | rfl
  · exact .inl hold
  · exact .inr hrow

/-- An update by the id of a row reaches the policies of one consent only. -/
theorem AuthDb.updatePolicies_keeps (hdb : db.Named ids) {id : String} {policy : PrincipalPolicy}
    (hchosen : Chooses (ids.consent (ids.policy id)).1 policy) :
    db.Keeps ids Chooses (db.updatePolicies (·.id = id) (encodePolicy policy)) := by
  refine .of_grants (fun _ hc => hc) (fun p hp => ?_) rfl rfl
  rcases Table.mem_updated rfl hp with ⟨hold, -⟩ | ⟨old, hold, hsame, rfl⟩
  · exact .inl hold
  · obtain rfl : old.id = id := of_decide_eq_true hsame
    refine .inr ⟨hdb.policies old hold, policy, rfl, ?_⟩
    show Chooses (ids.consent old.consentId).1 policy
    rwa [← hdb.policies old hold]

variable {E : Interference AuthDb (AuthInput ids)}

/-- The interference of a request that chooses these policies. -/
structure AuthServes (E : Interference AuthDb (AuthInput ids))
    (Chooses : String → PrincipalPolicy → Prop) : Prop where
  named : ∀ db, E.inv db → db.Named ids
  keeps : ∀ db db', E.inv db → db.Keeps ids Chooses db' → E.guarantee db db'
  idle : ∀ db, E.guarantee db db
  rely : ∀ db db', E.rely db db' → db.Identities db'
  guarantee : ∀ db db', E.inv db → E.guarantee db db' → db.Identities db'

/-- No operation takes a user or an account away. -/
theorem AuthOperation.Ensures.identities {α : Type} {R : α → Prop} {op : AuthOperation ids α}
    (h : op.Ensures E R) (hE : AuthServes E Chooses) (db : AuthDb) :
    op.Yields E True (fun a db' => R a ∧ db.Identities db') db := by
  refine (Proc.Ensures.tracks (R := AuthDb.Identities) (fun _ _ _ => .trans) hE.rely hE.guarantee
    (h db)).mono fun r db' hr => ?_
  exact ⟨fun a ha => ⟨hr.1.1 a ha, hr.2⟩, fun _ _ => trivial⟩

theorem mcpGrant_ensures (hidle : ∀ db, E.guarantee db db) (operatorId clientId : String) :
    (mcpGrant operatorId clientId).Ensures E fun grant =>
      ∃ db, E.inv db ∧ db.mcpGrant operatorId clientId = grant :=
  auth_read hidle fun db hI => ⟨db, hI, rfl⟩

theorem setPolicy_ensures (hE : AuthServes E Chooses) (operatorId : String) {consentId : String}
    {policy : PrincipalPolicy} (h : Chooses (ids.consent consentId).1 policy) :
    (setPolicy operatorId consentId policy).Ensures E fun _ => True := by
  refine auth_bind (auth_read hE.idle fun db _ => ?_)
  split
  · exact auth_pure trivial
  refine auth_bind (auth_write hE.idle fun db i db' hI _ hupsert => ?_)
  have hrow : ids.Written Chooses
      { id := i.policyId consentId, consentId, policy := encodePolicy policy } :=
    ⟨(i.policyId consentId).2, policy, rfl, h⟩
  exact ⟨hE.keeps _ _ hI (AuthDb.upsertPolicy_keeps (hE.named db hI) hrow hupsert),
    auth_pure trivial⟩

theorem revoke_ensures (hE : AuthServes E Chooses) (operatorId clientId : String) :
    (revoke operatorId clientId).Ensures E fun _ => True := by
  refine auth_write hE.idle fun db i db' hI _ hrun => ?_
  obtain rfl := Except.ok.inj hrun
  exact ⟨hE.keeps _ _ hI (db.revoke_keeps operatorId clientId), trivial⟩

omit [Unicode] in
/-- The consent of a client names the client. -/
theorem AuthDb.Named.consentOf (h : db.Named ids) {operatorId clientId : String}
    {c : OauthConsentRow} (hc : db.consentOf operatorId clientId = some c) :
    (ids.consent c.id).1 = clientId := by
  rw [h.consents c (Table.find?_mem hc)]
  have hp := Table.find?_prop hc
  simp only [Bool.and_eq_true, decide_eq_true_eq] at hp
  exact hp.1

theorem saveConsentPolicy_ensures (hE : AuthServes E Chooses) (operatorId : String)
    {clientId : Option String} {policy : PrincipalPolicy}
    (h : ∀ c, clientId = some c → Chooses c policy) :
    (saveConsentPolicy operatorId clientId policy).Ensures E fun _ => True := by
  cases clientId with
  | none => exact auth_pure trivial
  | some clientId =>
    refine auth_bind (auth_read hE.idle fun db hI => ?_)
    cases hconsent : db.consentOf operatorId clientId with
    | none => exact auth_pure trivial
    | some consent =>
      have hclient := (hE.named db hI).consentOf hconsent
      refine auth_bind (auth_read hE.idle fun db₁ hI₁ => ?_)
      cases hexisting : db₁.mcpPolicy.find? (·.consentId = consent.id) with
      | none =>
        refine auth_write hE.idle fun db₂ i db' hI₂ _ hinsert => ?_
        have hrow : ids.Written Chooses
            { id := i.policyId consent.id, consentId := consent.id,
              policy := encodePolicy policy } :=
          ⟨(i.policyId consent.id).2, policy, rfl, hclient ▸ h clientId rfl⟩
        exact ⟨hE.keeps _ _ hI₂ (AuthDb.insertPolicy_keeps hrow hinsert), trivial⟩
      | some existing =>
        refine auth_write hE.idle fun db₂ i db' hI₂ _ hrun => ?_
        obtain rfl := Except.ok.inj hrun
        -- the id of the row still names the consent it was found under
        have hnames : ids.policy existing.id = consent.id :=
          ((hE.named db₁ hI₁).policies existing (Table.find?_mem hexisting)).trans
            (by simpa using Table.find?_prop hexisting)
        refine ⟨hE.keeps _ _ hI₂ (AuthDb.updatePolicies_keeps (hE.named db₂ hI₂) ?_),
          trivial⟩
        rw [hnames, hclient]
        exact h clientId rfl

end keeps

/-! ### The clients page -/

section page
variable {db : AuthDb} {operatorId clientId : String}

omit [Unicode] in
/-- A consent that stays keeps its policy. -/
theorem AuthDb.policyOf_withConsents {consents : Table OauthConsentRow} {c : OauthConsentRow}
    (hc : c ∈ consents) : (db.withConsents consents).policyOf c = db.policyOf c := by
  unfold AuthDb.policyOf
  congr 1
  show (db.mcpPolicy.rows.filter _).find? _ = db.mcpPolicy.rows.find? _
  rw [List.find?_filter]
  congr 1
  funext p
  by_cases hp : p.consentId = c.id
  · have hstays : hasRow consents (·.id) p.consentId = true := hasRow_iff.mpr ⟨c, hc, hp.symm⟩
    simp [hp ▸ hstays, hp]
  · simp [hp]

omit [Unicode] in
/-- A consent to another client stays, with its policy. -/
theorem AuthDb.revoke_stays {c : OauthConsentRow} (hc : c ∈ db.oauthConsent)
    (hclient : c.clientId ≠ clientId) :
    (db.revoke operatorId clientId).policyOf c = db.policyOf c := by
  have hstays : c ∈ (db.revoke operatorId clientId).oauthConsent :=
    Table.mem_delete.mpr ⟨hc, by simp [hclient]⟩
  exact AuthDb.policyOf_withConsents hstays

omit [Unicode] in
theorem AuthDb.revoke_consentRows (db : AuthDb) (operatorId clientId : String) :
    (db.revoke operatorId clientId).consentRows operatorId =
      (db.consentRows operatorId).filter (·.clientId ≠ clientId) := by
  unfold AuthDb.consentRows
  rw [List.filter_map]
  have hrows : (db.revoke operatorId clientId).oauthConsent.select (·.userId = some operatorId) =
      (db.oauthConsent.select (·.userId = some operatorId)).filter (·.clientId ≠ clientId) := by
    show (db.oauthConsent.rows.filter _).filter _ = (db.oauthConsent.rows.filter _).filter _
    rw [List.filter_filter, List.filter_filter]
    congr 1
    funext c
    by_cases huser : c.userId = some operatorId
    · simp [huser]
    · simp [huser]
  rw [hrows]
  apply List.map_congr_left
  intro c hc
  obtain ⟨hselected, hclient⟩ := List.mem_filter.mp hc
  rw [AuthDb.revoke_stays (Table.mem_select.mp hselected).1 (of_decide_eq_true hclient)]
  rfl

omit [Unicode] in
theorem AuthDb.revoke_tokenRows (db : AuthDb) (operatorId clientId : String) :
    (db.revoke operatorId clientId).tokenRows operatorId =
      (db.tokenRows operatorId).filter (·.clientId ≠ clientId) := by
  unfold AuthDb.tokenRows
  rw [List.filter_map, AuthDb.revoke_consentRows]
  show List.map _ ((db.oauthRefreshToken.rows.filter _).filter _) =
    List.map _ ((db.oauthRefreshToken.rows.filter _).filter _)
  rw [List.filter_filter, List.filter_filter]
  congr 2
  funext t
  by_cases hclient : t.clientId = clientId
  · by_cases huser : t.userId = some operatorId
    · simp [hclient, huser]
    · simp [hclient, huser]
  · -- the consents that are gone are those of another client
    have hall : ((db.consentRows operatorId).filter (·.clientId ≠ clientId)).all
        (·.clientId ≠ t.clientId) = (db.consentRows operatorId).all
        (·.clientId ≠ t.clientId) := by
      rw [List.all_filter]
      congr 1
      funext row
      by_cases hrow : row.clientId = clientId
      · simp [hrow, Ne.symm hclient]
      · simp [hrow]
    simp only [hall]
    simp [hclient]

omit [Unicode] in
theorem AuthDb.revoke_grantRows (db : AuthDb) (operatorId clientId : String) :
    (db.revoke operatorId clientId).grantRows operatorId =
      (db.grantRows operatorId).filter (·.clientId ≠ clientId) := by
  have hkey : ∀ a b : GrantRow, a.columns ≤ b.columns ↔ a.columns ≤ b.columns :=
    fun _ _ => Iff.rfl
  have htotal : Std.Total fun a b : GrantRow => a.columns ≤ b.columns := Table.total_of_key hkey
  have htrans : IsTrans GrantRow fun a b => a.columns ≤ b.columns := Table.trans_of_key hkey
  unfold AuthDb.grantRows
  rw [filter_insertionSort, filter_dedup, List.filter_append, AuthDb.revoke_consentRows,
    AuthDb.revoke_tokenRows]

/-- Revoking takes the rows of the client off the page, and no other. -/
theorem AuthDb.revoke_list (db : AuthDb) (operatorId clientId : String) :
    (db.revoke operatorId clientId).list operatorId =
      (db.list operatorId).filter (·.clientId ≠ clientId) := by
  unfold AuthDb.list
  rw [AuthDb.revoke_grantRows, List.filter_map]
  rfl

omit [Unicode] in
theorem AuthDb.consentOf_revoke {other : String} (hother : other ≠ clientId) :
    (db.revoke operatorId clientId).consentOf operatorId other = db.consentOf operatorId other := by
  unfold AuthDb.consentOf
  show (db.oauthConsent.rows.filter _).find? _ = db.oauthConsent.rows.find? _
  rw [List.find?_filter]
  congr 1
  funext c
  by_cases hc : c.clientId = other
  · have hne : c.clientId ≠ clientId := fun heq => hother (hc.symm.trans heq)
    simp [hne]
  · simp [hc]

/-- The grants of other clients stay. -/
theorem AuthDb.mcpGrant_revoke {other : String} (hother : other ≠ clientId) :
    (db.revoke operatorId clientId).mcpGrant operatorId other = db.mcpGrant operatorId other := by
  unfold AuthDb.mcpGrant
  rw [AuthDb.consentOf_revoke hother]
  cases hconsent : db.consentOf operatorId other with
  | none => rfl
  | some c =>
    have hc := Table.find?_prop hconsent
    simp only [Bool.and_eq_true, decide_eq_true_eq] at hc
    have hne : c.clientId ≠ clientId := fun heq => hother (hc.1.symm.trans heq)
    simp only [AuthDb.revoke_stays (Table.find?_mem hconsent) hne]

theorem AuthDb.mcpGrant_none (h : ∀ c ∈ db.oauthConsent,
    ¬ (c.clientId = clientId ∧ c.userId = some operatorId)) :
    db.mcpGrant operatorId clientId = .none := by
  have hnone : db.consentOf operatorId clientId = none :=
    Table.find?_eq_none.mpr fun c hc => by simpa using h c hc
  unfold AuthDb.mcpGrant
  rw [hnone]

/-- A client with a policy is on the page, with that policy. -/
theorem AuthDb.mem_list_of_policy {policy : PrincipalPolicy}
    (h : db.mcpGrant operatorId clientId = .policy policy) :
    ∃ grant ∈ db.list operatorId, grant.clientId = clientId ∧ grant.policy = some policy := by
  unfold AuthDb.mcpGrant at h
  split at h
  · exact absurd h (by simp)
  next c hconsent =>
  split at h
  · exact absurd h (by simp)
  next stored hstored =>
  obtain rfl := McpGrant.policy.inj h
  have hc := Table.find?_prop hconsent
  simp only [Bool.and_eq_true, decide_eq_true_eq] at hc
  have hrow : { clientId := c.clientId, name := db.clientName c.clientId, consentId := some c.id
                policy := db.policyOf c : GrantRow } ∈ db.grantRows operatorId := by
    refine (List.mem_insertionSort _).mpr (List.mem_dedup.mpr (List.mem_append_left _ ?_))
    exact List.mem_map.mpr ⟨c, Table.mem_select.mpr
      ⟨Table.find?_mem hconsent, decide_eq_true hc.2⟩, rfl⟩
  exact ⟨_, List.mem_map.mpr ⟨_, hrow, rfl⟩, hc.1, hstored⟩

/-- **Revoking.** The page shows every client that has access, with its
    policy. Revoking a client ends its grant and takes its rows off the page;
    the other clients keep their rows and their grants. -/
theorem revoke_takes_one_client (db : AuthDb) (operatorId clientId : String) :
    (db.revoke operatorId clientId).mcpGrant operatorId clientId = .none ∧
    (db.revoke operatorId clientId).list operatorId =
      (db.list operatorId).filter (·.clientId ≠ clientId) ∧
    ∀ other policy, db.mcpGrant operatorId other = .policy policy →
      (∃ grant ∈ db.list operatorId, grant.clientId = other ∧ grant.policy = some policy) ∧
      (other ≠ clientId → (db.revoke operatorId clientId).mcpGrant operatorId other =
        .policy policy) := by
  refine ⟨AuthDb.mcpGrant_none fun c hc => ?_, db.revoke_list operatorId clientId, ?_⟩
  · obtain ⟨-, hkept⟩ := Table.mem_delete.mp hc
    simpa using hkept
  · intro other policy h
    refine ⟨AuthDb.mem_list_of_policy h, fun hother => ?_⟩
    rw [AuthDb.mcpGrant_revoke hother, h]

end page

end grants

/-! ### Two clients -/

namespace Sample

open External

def readingPolicy : PrincipalPolicy where
  mailboxIds := .all
  canRead := true
  sendMode := .deny
  recipientAllowlist := .any

def sendingPolicy : PrincipalPolicy where
  mailboxIds := .all
  canRead := false
  sendMode := .allow
  recipientAllowlist := .any

/-- Each of two clients has a consent with a policy, and the second one a token. -/
def twoClients : AuthDb where
  user := .empty
  account := .empty
  session := .empty
  verification := .empty
  deviceCode := .empty
  oauthResource := .empty
  oauthClient := .empty
  oauthClientResource := .empty
  oauthAccessToken := .empty
  oauthRefreshToken :=
    ⟨[{ id := "token-2", clientId := "client-2", userId := some "operator", revoked := none }],
      List.pairwise_singleton _ _⟩
  oauthConsent :=
    ⟨[{ id := "consent-1", clientId := "client-1", userId := some "operator" },
      { id := "consent-2", clientId := "client-2", userId := some "operator" }], by decide⟩
  mcpPolicy :=
    ⟨[{ id := "policy-1", consentId := "consent-1", policy := encodePolicy readingPolicy },
      { id := "policy-2", consentId := "consent-2", policy := encodePolicy sendingPolicy }], by
      refine List.pairwise_pair.mpr ?_
      show ¬ ("policy-1" = "policy-2" ∨ "consent-1" = "consent-2")
      decide⟩
  references := by
    intro p hp
    rcases List.mem_cons.mp hp with rfl | hp
    · exact ⟨_, List.mem_cons_self, rfl⟩
    · obtain rfl := List.mem_singleton.mp hp
      exact ⟨_, List.mem_cons_of_mem _ List.mem_cons_self, rfl⟩

end Sample

section sample
open Sample Sample.External

/-- Revoking the first client leaves the second with its policy, on the page and
    in its grant. -/
theorem revoke_takes_one_client_second :
    twoClients.mcpGrant "operator" "client-1" = .policy readingPolicy ∧
    (twoClients.revoke "operator" "client-1").mcpGrant "operator" "client-1" = .none ∧
    (twoClients.revoke "operator" "client-1").mcpGrant "operator" "client-2" =
      .policy sendingPolicy ∧
    (∃ grant ∈ twoClients.list "operator", grant.clientId = "client-2" ∧
      grant.policy = some sendingPolicy) ∧
    ((twoClients.revoke "operator" "client-1").list "operator").map (·.clientId) =
      ["client-2"] := by
  have hgrant : ∀ {c : OauthConsentRow} {clientId : String} {policy : PrincipalPolicy},
      twoClients.consentOf "operator" clientId = some c →
      twoClients.policyOf c = some (encodePolicy policy) →
      twoClients.mcpGrant "operator" clientId = .policy policy := by
    intro c clientId policy hconsent hpolicy
    have hstored : storedPolicy (encodePolicy policy) = some policy :=
      decodeStoredPolicy_encode policy
    simp only [AuthDb.mcpGrant, hconsent, hpolicy, Option.bind_some, hstored]
  have hfirst : twoClients.mcpGrant "operator" "client-1" = .policy readingPolicy :=
    hgrant (c := { id := "consent-1", clientId := "client-1", userId := some "operator" })
      (by decide) rfl
  have hsecond : twoClients.mcpGrant "operator" "client-2" = .policy sendingPolicy :=
    hgrant (c := { id := "consent-2", clientId := "client-2", userId := some "operator" })
      (by decide) rfl
  obtain ⟨hended, hlisted, hothers⟩ := revoke_takes_one_client twoClients "operator" "client-1"
  obtain ⟨hshown, hkept⟩ := hothers "client-2" sendingPolicy hsecond
  have hclients : (twoClients.list "operator").map (·.clientId) = ["client-1", "client-2"] := by
    decide +kernel
  refine ⟨hfirst, hended, hkept (by decide), hshown, ?_⟩
  have hfilter := congrArg (List.filter (· ≠ "client-1")) hclients
  rw [List.filter_map] at hfilter
  rw [hlisted]
  exact hfilter

end sample

end Umail
