import Umail.Account.Domain
import Umail.Auth.Access

/-! # Access tokens

  `apps/server/src/auth/oauth-resource.ts`: which bearer tokens a resource of
  the server accepts. The signature, the issuer and the expiry are checked by
  the OAuth library; the claims are checked here. A token is for exactly one
  resource.
-/

namespace Umail

open Json

def UMAIL_CLI_CLIENT_ID : String := "umail-cli"
def UMAIL_OAUTH_SCOPE : String := "umail:access"
def OFFLINE_ACCESS_SCOPE : String := "offline_access"

/-- The options that `verifyJwsAccessToken` checks a token against. -/
structure VerifyOptions where
  issuer : String
  audience : String
  requiredClaims : List String

structure AccessTokenAuthorization where
  scheme : String
  token : String

/-- What the OAuth library does with a token. -/
structure TokenLibrary where
  parseAccessTokenAuthorization : Option String → Option AccessTokenAuthorization
  /-- The payload of a valid token at an instant. -/
  verifyJwsAccessToken : String → VerifyOptions → Instant → Option Data

structure OAuthResourceRequirements where
  issuer : String
  audience : String
  scopes : List String

structure OAuthAccess where
  subject : String
  clientId : String
  scopes : List String

inductive AccessError where
  | unauthorized (message : String)
  | insufficientScope (missing : List String)

/-! ### Claims -/

/-- The `aud` claim. -/
inductive Audience where
  | single (audience : String)
  | many (audiences : List String)

structure OAuthAccessTokenClaims where
  sub : String
  client_id : String
  scope : String
  aud : Audience

def nonemptyString : Option Data → Option String
  | some (.string s) => if s.isEmpty then none else some s
  | _ => none

def decodeAudience : Option Data → Option Audience
  | some (.string s) => some (.single s)
  | some (.array items) => (items.mapM stringItem).map .many
  | _ => none

/-- `Schema.Literal(true)` -/
def isTrue : Option Data → Option Unit
  | some (.bool true) => some ()
  | _ => none

def decodeClaims (payload : Data) : Option OAuthAccessTokenClaims := do
  let sub ← nonemptyString (payload.member "sub")
  let client_id ← nonemptyString (payload.member "client_id")
  let scope ← (payload.member "scope").bind stringItem
  let aud ← decodeAudience (payload.member "aud")
  isTrue (payload.member "umail_operator")
  return { sub, client_id, scope, aud }

def hasExactAudience (audience : Audience) (expected : String) : Bool :=
  match audience with
  | .single audience => audience = expected
  | .many audiences => audiences = [expected]

def unauthorizedAccessToken : AccessError := .unauthorized "Invalid OAuth access token"

/-- A valid token whose grant was revoked. -/
def revokedAccess : AccessError := .unauthorized "This client's access was revoked."

def tokenScopes (scope : String) : List String :=
  ((scope.toList.splitOn ' ').filter fun name => !name.isEmpty).map String.ofList

/-! ### Verification -/

def requiredClaims : List String := ["exp", "sub", "client_id", "scope", "aud", "umail_operator"]

/-- The access that the claims of a payload give. -/
def accessOfPayload (payload : Data) (requirements : OAuthResourceRequirements) :
    Except AccessError OAuthAccess :=
  if (payload.member "cnf").isSome then .error unauthorizedAccessToken
  else
    match decodeClaims payload with
    | none => .error unauthorizedAccessToken
    | some claims =>
      if !hasExactAudience claims.aud requirements.audience then .error unauthorizedAccessToken
      else
        let scopes := tokenScopes claims.scope
        let missing := requirements.scopes.filter fun scope => !scopes.contains scope
        if missing.isEmpty then
          .ok { subject := claims.sub, clientId := claims.client_id, scopes }
        else .error (.insufficientScope missing)

variable (library : TokenLibrary)

def verifyOAuthBearerToken (token : String) (requirements : OAuthResourceRequirements)
    (now : Instant) : Except AccessError OAuthAccess :=
  match library.verifyJwsAccessToken token
      { issuer := requirements.issuer, audience := requirements.audience, requiredClaims } now with
  | none => .error unauthorizedAccessToken
  | some payload => accessOfPayload payload requirements

def verifyOAuthResourceRequest (authorization : Option String)
    (requirements : OAuthResourceRequirements) (now : Instant) : Except AccessError OAuthAccess :=
  match library.parseAccessTokenAuthorization authorization with
  | none => .error unauthorizedAccessToken
  | some authorization =>
    if authorization.scheme ≠ "Bearer" then .error unauthorizedAccessToken
    else verifyOAuthBearerToken library authorization.token requirements now

/-! ### What is accepted -/

variable {library} {requirements : OAuthResourceRequirements} {access : OAuthAccess}

end Umail
