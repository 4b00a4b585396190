import Umail.Account.Domain
import Umail.Auth.Access
import Umail.Framework.Process

/-! # The auth database

  The tables of the D1 database that `access.ts`, `options.ts` and
  `provisioning.ts` of `apps/server/src/auth` read and write, with the
  statements they run. Better Auth owns all of them but `mcpPolicy`, whose
  reference to a consent is `ON DELETE CASCADE`.
-/

namespace Umail

open Lts Relational

/-! ### Rows -/

structure UserRow where
  id : String
  name : String
  email : String
  emailVerified : Bool
  createdAt : Instant
  updatedAt : Instant

structure CredentialAccountRow where
  id : String
  accountId : String
  providerId : String
  userId : String
  password : Option String
  createdAt : Instant
  updatedAt : Instant

structure SessionRow where
  id : String
  userId : String

structure VerificationRow where
  id : String

structure DeviceCodeRow where
  id : String

structure OauthResourceRow where
  id : String
  identifier : String
  name : String
  accessTokenTtl : Nat
  allowedScopes : String
  dpopBoundAccessTokensRequired : Bool
  disabled : Bool
  policyVersion : Nat
  createdAt : Instant
  updatedAt : Instant

structure OauthClientRow where
  id : String
  clientId : String
  clientDiscoveryId : Option String
  name : Option String
  tokenEndpointAuthMethod : String
  grantTypes : String
  responseTypes : String
  redirectUris : String
  scopes : String
  requirePKCE : Bool
  metadata : Option String
  disabled : Bool
  createdAt : Instant
  updatedAt : Instant

structure OauthClientResourceRow where
  id : String
  clientId : String
  resourceId : String
  createdAt : Instant

structure OauthAccessTokenRow where
  id : String
  clientId : String
  userId : Option String

structure OauthRefreshTokenRow where
  id : String
  clientId : String
  userId : Option String
  revoked : Option Instant

structure OauthConsentRow where
  id : String
  clientId : String
  userId : Option String
  deriving DecidableEq

structure McpPolicyRow where
  id : String
  consentId : String
  policy : String
  deriving DecidableEq

/-- `id` is the primary key, and another column is unique. -/
abbrev Keyed.unique {ρ : Type} (id column : ρ → String) : Keyed ρ (String × String) where
  key r := (id r, column r)
  clash a b := a.1 = b.1 ∨ a.2 = b.2
  symm h := h.imp Eq.symm Eq.symm
  decClash := inferInstance

instance : Keyed UserRow (String × String) := Keyed.unique (·.id) (·.email)
instance : Keyed CredentialAccountRow String := .primary (·.id)
instance : Keyed SessionRow String := .primary (·.id)
instance : Keyed VerificationRow String := .primary (·.id)
instance : Keyed DeviceCodeRow String := .primary (·.id)
instance : Keyed OauthResourceRow (String × String) := Keyed.unique (·.id) (·.identifier)
instance : Keyed OauthClientRow (String × String) := Keyed.unique (·.id) (·.clientId)
instance : Keyed OauthClientResourceRow String := .primary (·.id)
instance : Keyed OauthAccessTokenRow String := .primary (·.id)
instance : Keyed OauthRefreshTokenRow String := .primary (·.id)
instance : Keyed OauthConsentRow String := .primary (·.id)
instance : Keyed McpPolicyRow (String × String) := Keyed.unique (·.id) (·.consentId)

/-- Whether a row has the value in a column. -/
def hasRow {ρ κ : Type} [Keyed ρ κ] (t : Table ρ) (column : ρ → String) (value : String) :
    Bool := t.rows.any fun r => column r = value

theorem hasRow_iff {ρ κ : Type} [Keyed ρ κ] {t : Table ρ} {column : ρ → String}
    {value : String} : hasRow t column value = true ↔ ∃ r ∈ t, column r = value := by
  simp only [hasRow, List.any_eq_true, decide_eq_true_eq]
  rfl

/-- The database. Every policy refers to a consent. -/
@[ext] structure AuthDb where
  user : Table UserRow
  account : Table CredentialAccountRow
  session : Table SessionRow
  verification : Table VerificationRow
  deviceCode : Table DeviceCodeRow
  oauthResource : Table OauthResourceRow
  oauthClient : Table OauthClientRow
  oauthClientResource : Table OauthClientResourceRow
  oauthAccessToken : Table OauthAccessTokenRow
  oauthRefreshToken : Table OauthRefreshTokenRow
  oauthConsent : Table OauthConsentRow
  mcpPolicy : Table McpPolicyRow
  references : ∀ p ∈ mcpPolicy, ∃ c ∈ oauthConsent, c.id = p.consentId

/-- The database right after its migrations. -/
def AuthDb.empty : AuthDb where
  user := .empty
  account := .empty
  session := .empty
  verification := .empty
  deviceCode := .empty
  oauthResource := .empty
  oauthClient := .empty
  oauthClientResource := .empty
  oauthAccessToken := .empty
  oauthRefreshToken := .empty
  oauthConsent := .empty
  mcpPolicy := .empty
  references _ h := absurd h Table.mem_empty

/-! ### Statements -/

/-- Why a statement fails. -/
inductive D1Error where
  | unique
  | foreignKey

/-- Replaces the consents. The policies of those that are gone go with them. -/
def AuthDb.withConsents (db : AuthDb) (consents : Table OauthConsentRow) : AuthDb where
  user := db.user
  account := db.account
  session := db.session
  verification := db.verification
  deviceCode := db.deviceCode
  oauthResource := db.oauthResource
  oauthClient := db.oauthClient
  oauthClientResource := db.oauthClientResource
  oauthAccessToken := db.oauthAccessToken
  oauthRefreshToken := db.oauthRefreshToken
  oauthConsent := consents
  mcpPolicy := db.mcpPolicy.delete fun p => !hasRow consents (·.id) p.consentId
  references p hp := by
    obtain ⟨-, hkept⟩ := Table.mem_delete.mp hp
    exact hasRow_iff.mp (by simpa using hkept)

/-- `DELETE FROM oauthConsent WHERE p` -/
def AuthDb.deleteConsents (db : AuthDb) (p : OauthConsentRow → Bool) : AuthDb :=
  db.withConsents (db.oauthConsent.delete p)

/-- `INSERT INTO mcpPolicy` -/
def AuthDb.insertPolicy (db : AuthDb) (row : McpPolicyRow) : Except D1Error AuthDb :=
  if hc : hasRow db.oauthConsent (·.id) row.consentId = true then
    match hinsert : db.mcpPolicy.insert? row with
    | none => .error .unique
    | some policies => .ok { db with
        mcpPolicy := policies
        references := by
          intro p hp
          rcases (Table.mem_insert? hinsert).mp hp with hold | rfl
          · exact db.references p hold
          · exact hasRow_iff.mp hc }
  else .error .foreignKey

/-- `UPDATE mcpPolicy SET policy = ? WHERE p` -/
def AuthDb.updatePolicies (db : AuthDb) (p : McpPolicyRow → Bool) (policy : String) : AuthDb :=
  { db with
    mcpPolicy := db.mcpPolicy.update p (fun row => { row with policy }) fun _ => rfl
    references := by
      intro row hrow
      rcases Table.mem_update.mp hrow with ⟨old, hold, rfl⟩
      obtain ⟨c, hc, hid⟩ := db.references old hold
      refine ⟨c, hc, ?_⟩
      by_cases hp : p old = true
      · simpa [hp] using hid
      · simpa [hp] using hid }

/-- `INSERT INTO mcpPolicy .. ON CONFLICT (consentId) DO UPDATE SET policy = excluded.policy` -/
def AuthDb.upsertPolicy (db : AuthDb) (row : McpPolicyRow) : Except D1Error AuthDb :=
  if hasRow db.mcpPolicy (·.consentId) row.consentId then
    .ok (db.updatePolicies (fun p => p.consentId = row.consentId) row.policy)
  else db.insertPolicy row

theorem AuthDb.mem_withConsents {db : AuthDb} {consents : Table OauthConsentRow}
    {p : McpPolicyRow} (h : p ∈ (db.withConsents consents).mcpPolicy) : p ∈ db.mcpPolicy :=
  (Table.mem_delete.mp h).1

/-- What an inserted policy leaves. -/
theorem AuthDb.insertPolicy_ok {db db' : AuthDb} {row : McpPolicyRow}
    (h : db.insertPolicy row = .ok db') :
    (∃ c ∈ db.oauthConsent, c.id = row.consentId) ∧ db'.oauthConsent = db.oauthConsent ∧
      db'.user = db.user ∧ db'.account = db.account ∧
      db'.mcpPolicy.rows = db.mcpPolicy.rows ++ [row] := by
  unfold AuthDb.insertPolicy at h
  split at h
  · next hc =>
    split at h
    · exact absurd h (by simp)
    · next policies hinsert =>
      obtain rfl := Except.ok.inj h
      exact ⟨hasRow_iff.mp hc, rfl, rfl, rfl, Table.insert?_rows hinsert⟩
  · exact absurd h (by simp)

/-- What an upserted policy leaves. -/
theorem AuthDb.upsertPolicy_ok {db db' : AuthDb} {row : McpPolicyRow}
    (h : db.upsertPolicy row = .ok db') :
    (∃ c ∈ db.oauthConsent, c.id = row.consentId) ∧ db'.oauthConsent = db.oauthConsent ∧
      db'.user = db.user ∧ db'.account = db.account ∧ ∀ p ∈ db'.mcpPolicy,
        p ∈ db.mcpPolicy ∨ p = row ∨
        ∃ old ∈ db.mcpPolicy, old.consentId = row.consentId ∧
          p = { old with policy := row.policy } := by
  unfold AuthDb.upsertPolicy at h
  split at h
  · next hany =>
    obtain rfl := Except.ok.inj h
    obtain ⟨stored, hstored, hid⟩ := hasRow_iff.mp hany
    obtain ⟨c, hc, hcid⟩ := db.references stored hstored
    refine ⟨⟨c, hc, hcid.trans hid⟩, rfl, rfl, rfl, fun p hp => ?_⟩
    rcases Table.mem_updated rfl hp with ⟨hold, -⟩ | ⟨old, hold, hsame, rfl⟩
    · exact .inl hold
    · exact .inr (.inr ⟨old, hold, of_decide_eq_true hsame, rfl⟩)
  · obtain ⟨hconsent, hconsents, husers, haccounts, hrows⟩ := AuthDb.insertPolicy_ok h
    refine ⟨hconsent, hconsents, husers, haccounts, fun p hp => ?_⟩
    rw [← Table.mem_rows, hrows, List.mem_append, List.mem_singleton] at hp
    exact hp.imp id .inl

/-! ### Calls -/

/-- What random ids stand for. An id is drawn once, so it says of itself which
    consent or policy it names. -/
structure IdNames where
  /-- The client and the user of a consent. -/
  consent : String → String × Option String
  /-- The consent of a policy. -/
  policy : String → String

/-- What a call gets from outside the database. -/
structure AuthInput (ids : IdNames) where
  /-- `randomId` -/
  randomId : String
  /-- A new id for the policy of a consent. -/
  policyId : (consentId : String) → { id : String // ids.policy id = consentId }
  now : Instant
  /-- The salt of a password hash. -/
  salt : String

inductive AuthFailure where
  | d1 (error : D1Error)
  | notFound (code message : String)
  | unreadable
  | died (message : String)

variable {ids : IdNames} {α : Type}

abbrev AuthOperation (ids : IdNames) (α : Type) :=
  ExceptT AuthFailure (Proc AuthDb (AuthInput ids)) α

/-- A statement or a batch: it happens as a whole, or fails and changes nothing. -/
def authWrite (run : AuthDb → AuthInput ids → Except D1Error AuthDb) : AuthOperation ids Unit :=
  ExceptT.mk (Proc.atomic fun db i =>
    match run db i with
    | .ok db' => (.ok (), db')
    | .error error => (.error (.d1 error), db))

def authRead (run : AuthDb → α) : AuthOperation ids α :=
  ExceptT.mk (Proc.read fun db => .ok (run db))

def authTake (run : AuthInput ids → α) : AuthOperation ids α :=
  ExceptT.mk (Proc.take fun i => .ok (run i))

def authFail (failure : AuthFailure) : AuthOperation ids α := throw failure

/-! ### What an operation ensures -/

section ensures
variable {β : Type} {E : Interference AuthDb (AuthInput ids)}

/-- Its calls keep the guarantee. Its result, if it has one, satisfies `Q` from
    then on; it has none only if it may fail. -/
def AuthOperation.Yields (E : Interference AuthDb (AuthInput ids)) (mayFail : Prop)
    (Q : α → AuthDb → Prop) (op : AuthOperation ids α) (db : AuthDb) : Prop :=
  Proc.Ensures E (fun r db' => (∀ a, r = .ok a → Q a db') ∧ ∀ failure,
    r = .error failure → mayFail)
    op.run db

section yields
variable {mayFail : Prop} {Q : α → AuthDb → Prop} {db : AuthDb}

theorem AuthOperation.Yields.mono {Q' : α → AuthDb → Prop} {op : AuthOperation ids α}
    (h : op.Yields E mayFail Q db) (hQ : ∀ a db', Q a db' → Q' a db') :
      op.Yields E mayFail Q' db :=
  Proc.Ensures.mono h fun _ db' hr => ⟨fun a ha => hQ a db' (hr.1 a ha), hr.2⟩

/-- What the operation gives its caller. -/
theorem AuthOperation.Yields.run {op : AuthOperation ids α} (h : op.Yields E mayFail Q db)
    {Q' : Except AuthFailure α → AuthDb → Prop} (hok : ∀ a db', Q a db' → Q' (.ok a) db')
    (herror : ∀ failure db', mayFail → Q' (.error failure) db') : op.run.Ensures E Q' db := by
  refine Proc.Ensures.mono h fun r db' hr => ?_
  cases r with
  | ok a => exact hok a db' (hr.1 a rfl)
  | error failure => exact herror failure db' (hr.2 failure rfl)

theorem yields_pure {a : α} (h : ∀ db', E.rely db db' → E.inv db' → Q a db') :
    AuthOperation.Yields E mayFail Q (pure a) db := by
  intro db' hdb hI
  refine ⟨fun b hb => ?_, fun _ hfailure => absurd hfailure (by simp)⟩
  obtain rfl := Except.ok.inj hb
  exact h db' hdb hI

theorem yields_bind {op : AuthOperation ids α} {f : α → AuthOperation ids β}
    {Q : β → AuthDb → Prop}
    (h : op.Yields E mayFail (fun a db' => (f a).Yields E mayFail Q db') db) :
    AuthOperation.Yields E mayFail Q (op >>= f) db := by
  refine Proc.ensures_bind (Proc.Ensures.mono h fun r db' hr => ?_)
  cases r with
  | ok a => exact hr.1 a rfl
  | error failure =>
    exact fun _ _ _ => ⟨fun _ hb => absurd hb (by simp), fun _ _ => hr.2 failure rfl⟩

theorem yields_fail {failure : AuthFailure} (h : mayFail) :
    AuthOperation.Yields E mayFail Q (authFail failure) db :=
  fun _ _ _ => ⟨fun _ hb => absurd hb (by simp), fun _ _ => h⟩

theorem yields_read {run : AuthDb → α} (hidle : ∀ db, E.guarantee db db)
    (h : ∀ db', E.rely db db' → E.inv db' → ∀ db'', E.rely db' db'' → E.inv db'' →
      Q (run db') db'') : AuthOperation.Yields E mayFail Q (authRead run) db := by
  refine Proc.ensures_read hidle fun db' hdb hI db'' hdb' hI' => ⟨fun a ha => ?_, ?_⟩
  · obtain rfl := Except.ok.inj ha
    exact h db' hdb hI db'' hdb' hI'
  · exact fun _ hfailure => absurd hfailure (by simp)

theorem yields_take {run : AuthInput ids → α} (hidle : ∀ db, E.guarantee db db)
    (h : ∀ i db', E.rely db db' → E.inv db' → Q (run i) db') :
    AuthOperation.Yields E mayFail Q (authTake run) db := by
  refine Proc.ensures_take hidle fun i db' hdb hI => ⟨fun a ha => ?_, ?_⟩
  · obtain rfl := Except.ok.inj ha
    exact h i db' hdb hI
  · exact fun _ hfailure => absurd hfailure (by simp)

theorem yields_write {run : AuthDb → AuthInput ids → Except D1Error AuthDb}
    {Q : Unit → AuthDb → Prop} (hidle : ∀ db, E.guarantee db db)
    (hok : ∀ db' i db'', E.rely db db' → E.inv db' → E.accepts db' i →
      run db' i = .ok db'' →
      E.guarantee db' db'' ∧ ∀ db₁, E.rely db'' db₁ → E.inv db₁ → Q () db₁)
    (herror : ∀ db' i error, E.rely db db' → E.inv db' → E.accepts db' i →
      run db' i = .error error → mayFail) :
    AuthOperation.Yields E mayFail Q (authWrite run) db := by
  intro db' hdb hI i hi
  show E.guarantee db' (match run db' i with
    | .ok db'' => ((.ok () : Except AuthFailure Unit), db'')
    | .error error => (.error (.d1 error), db')).2 ∧ _
  cases hrun : run db' i with
  | error error =>
    simp only [hrun]
    exact ⟨hidle db', fun _ _ _ =>
      ⟨fun _ hb => absurd hb (by simp), fun _ _ => herror db' i error hdb hI hi hrun⟩⟩
  | ok db'' =>
    obtain ⟨hguarantee, hQ⟩ := hok db' i db'' hdb hI hi hrun
    simp only [hrun]
    exact ⟨hguarantee, fun db₁ hdb₁ hI₁ =>
      ⟨fun _ _ => hQ db₁ hdb₁ hI₁, fun _ hfailure => absurd hfailure (by simp)⟩⟩

end yields

/-! An operation on its own. -/

section solo
variable {mayFail : Prop} {Q : α → AuthDb → Prop} {db : AuthDb}

theorem solo_pure {a : α} (h : Q a db) :
    AuthOperation.Yields .solo mayFail Q (pure a : AuthOperation ids α) db := by
  refine yields_pure ?_
  rintro _ rfl -
  exact h

theorem solo_read {run : AuthDb → α} (h : Q (run db) db) :
    AuthOperation.Yields .solo mayFail Q (authRead run : AuthOperation ids α) db := by
  refine yields_read (fun _ => trivial) ?_
  rintro _ rfl - _ rfl -
  exact h

theorem solo_take {run : AuthInput ids → α} (h : ∀ i, Q (run i) db) :
    AuthOperation.Yields .solo mayFail Q (authTake run) db := by
  refine yields_take (fun _ => trivial) ?_
  rintro i _ rfl -
  exact h i

theorem solo_write {run : AuthDb → AuthInput ids → Except D1Error AuthDb}
    {Q : Unit → AuthDb → Prop} (hok : ∀ i db', run db i = .ok db' → Q () db')
    (herror : ∀ i error, run db i = .error error → mayFail) :
    AuthOperation.Yields .solo mayFail Q (authWrite run) db := by
  refine yields_write (fun _ => trivial) ?_ ?_
  · rintro _ i db' rfl - - hrun
    refine ⟨trivial, ?_⟩
    rintro _ rfl -
    exact hok i db' hrun
  · rintro _ i error rfl - - hrun
    exact herror i error hrun

end solo

section result
variable {R : α → Prop}

/-- Its calls keep the guarantee, and its result, if it has one, satisfies `R`. -/
def AuthOperation.Ensures (E : Interference AuthDb (AuthInput ids)) (R : α → Prop)
    (op : AuthOperation ids α) : Prop := ∀ db, op.Yields E True (fun a _ => R a) db

theorem AuthOperation.Ensures.mono {R' : α → Prop} {op : AuthOperation ids α}
    (h : op.Ensures E R)
    (hR : ∀ a, R a → R' a) : op.Ensures E R' := fun db => (h db).mono fun a _ => hR a

theorem auth_pure {a : α} (h : R a) : AuthOperation.Ensures E R (pure a) :=
  fun _ => yields_pure fun _ _ _ => h

theorem auth_bind {op : AuthOperation ids α} {f : α → AuthOperation ids β} {R : β → Prop}
    (h : op.Ensures E fun a => (f a).Ensures E R) : AuthOperation.Ensures E R (op >>= f) :=
  fun db => yields_bind ((h db).mono fun _ db' hf => hf db')

theorem auth_forM {l : List β} {f : β → AuthOperation ids PUnit}
    (h : ∀ b, (f b).Ensures E fun _ => True) :
    AuthOperation.Ensures E (fun _ => True) (l.forM f) := by
  induction l with
  | nil => exact auth_pure trivial
  | cons b l ih => exact auth_bind ((h b).mono fun _ _ => ih)

theorem auth_fail {failure : AuthFailure} : AuthOperation.Ensures E R (authFail failure) :=
  fun _ => yields_fail trivial

theorem auth_read {run : AuthDb → α} (hidle : ∀ db, E.guarantee db db)
    (h : ∀ db, E.inv db → R (run db)) : AuthOperation.Ensures E R (authRead run) :=
  fun _ => yields_read hidle fun db' _ hI _ _ _ => h db' hI

theorem auth_take {run : AuthInput ids → α} (hidle : ∀ db, E.guarantee db db)
    (h : ∀ i, R (run i)) : AuthOperation.Ensures E R (authTake run) :=
  fun _ => yields_take hidle fun i _ _ _ => h i

theorem auth_write {run : AuthDb → AuthInput ids → Except D1Error AuthDb} {R : Unit → Prop}
    (hidle : ∀ db, E.guarantee db db)
    (h : ∀ db i db', E.inv db → E.accepts db i → run db i = .ok db' →
      E.guarantee db db' ∧ R ()) : AuthOperation.Ensures E R (authWrite run) := by
  refine fun _ => yields_write hidle ?_ fun _ _ _ _ _ _ _ => trivial
  intro db' i db'' _ hI hi hrun
  obtain ⟨hguarantee, hR⟩ := h db' i db'' hI hi hrun
  exact ⟨hguarantee, fun _ _ _ => hR⟩

end result

end ensures

end Umail
