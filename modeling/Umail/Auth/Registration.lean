import Umail.Auth.Access

/-! # Dynamic client registration

  `normalizedRegistration` of `apps/server/src/auth/options.ts`: what a
  registration request is turned into, and the checks that it has to pass.
  Defaults and rewriting come before the checks. `URL.parse` belongs to the
  platform; a URL counts by its protocol and host name only.
-/

namespace Umail

open Json

/-! ### Registrations -/

/-- `DynamicRegistrationBody` -/
@[ext]
structure DynamicRegistration where
  token_endpoint_auth_method : String
  grant_types : Option (List String)
  response_types : Option (List String)
  redirect_uris : Option (List String)
  application_type : Option String
  resources : Option (List String)
  subject_type : Option String
  dpop_bound_access_tokens : Option Bool

/-- The grant types are there. -/
structure NormalizedRegistration extends DynamicRegistration where
  granted : grant_types.isSome = true

def NormalizedRegistration.grantTypes (registration : NormalizedRegistration) : List String :=
  registration.grant_types.get registration.granted

/-- `Schema.optionalKey(Schema.Array(Schema.String))` -/
def optionalStrings : Option Data → Option (Option (List String))
  | none => some none
  | some (.array items) => (items.mapM stringItem).map some
  | some _ => none

/-- The keys of type `Schema.Never`. -/
def serverKeys : List String :=
  ["client_id", "client_secret", "client_id_issued_at", "client_secret_expires_at", "disabled",
    "user_id", "reference_id"]

def decodeDynamicRegistration (body : Data) : Option DynamicRegistration := do
  let token_endpoint_auth_method ← (body.member "token_endpoint_auth_method").bind stringItem
  let grant_types ← optionalStrings (body.member "grant_types")
  let response_types ← optionalStrings (body.member "response_types")
  let redirect_uris ← optionalStrings (body.member "redirect_uris")
  let application_type ← optionalString (body.member "application_type")
  let resources ← optionalStrings (body.member "resources")
  let subject_type ← optionalString (body.member "subject_type")
  let dpop_bound_access_tokens ← optionalBoolean (body.member "dpop_bound_access_tokens")
  if serverKeys.all fun key => (body.member key).isNone then
    return { token_endpoint_auth_method, grant_types, response_types, redirect_uris
             application_type, resources, subject_type, dpop_bound_access_tokens }
  else none

/-- A key that is left out when it has no value. -/
def optionalMember (name : String) (value : Option Data) : List (String × Data) :=
  match value with
  | none => []
  | some value => [(name, value)]

def stringsData (items : List String) : Data := .array (items.map .string)

/-- The registration as a body. -/
def DynamicRegistration.data (registration : DynamicRegistration) : Data :=
  .object
    (("token_endpoint_auth_method", .string registration.token_endpoint_auth_method) ::
      (optionalMember "grant_types" (registration.grant_types.map stringsData) ++
      optionalMember "response_types" (registration.response_types.map stringsData) ++
      optionalMember "redirect_uris" (registration.redirect_uris.map stringsData) ++
      optionalMember "application_type" (registration.application_type.map .string) ++
      optionalMember "resources" (registration.resources.map stringsData) ++
      optionalMember "subject_type" (registration.subject_type.map .string) ++
      optionalMember "dpop_bound_access_tokens"
        (registration.dpop_bound_access_tokens.map .bool)))

/-- An `APIError` of status `BAD_REQUEST`. -/
inductive APIError where
  | message (message : String)
  | error (error error_description : String)

def invalidRegistration : APIError := .message "Unsupported public OAuth client metadata"

/-! ### The Cursor profile -/

def AUTHORIZATION_CODE_GRANT_TYPE : String := "authorization_code"

def CURSOR_MCP_REDIRECT_URI : String := "cursor://anysphere.cursor-mcp/oauth/callback"

def CURSOR_CLOUD_CALLBACK_URI : String := "https://www.cursor.com/agents/mcp/oauth/callback"

def CURSOR_LOOPBACK_CALLBACK_URI : String := "http://localhost:8787/callback"

def CURSOR_MCP_REDIRECT_URIS : List String :=
  [CURSOR_MCP_REDIRECT_URI, CURSOR_CLOUD_CALLBACK_URI, CURSOR_LOOPBACK_CALLBACK_URI]

def isCursorMcpPublicClientRegistration (registration : DynamicRegistration) : Bool :=
  let redirectUris := registration.redirect_uris
  let grantTypes := registration.grant_types.getD [AUTHORIZATION_CODE_GRANT_TYPE]
  let responseTypes := registration.response_types.getD ["code"]
  let applicationType := registration.application_type
  if applicationType ≠ none ∧ applicationType ≠ some "web" ∧
    applicationType ≠ some "native" then
    false
  else
    registration.token_endpoint_auth_method = "none" &&
      redirectUris.any (fun uris => !uris.isEmpty && uris.contains CURSOR_MCP_REDIRECT_URI &&
        uris.all fun uri => CURSOR_MCP_REDIRECT_URIS.contains uri) &&
      grantTypes.contains AUTHORIZATION_CODE_GRANT_TYPE &&
      grantTypes.all (fun grantType =>
        grantType = AUTHORIZATION_CODE_GRANT_TYPE || grantType = "refresh_token") &&
      !responseTypes.isEmpty && responseTypes.all (· = "code")

def assertCursorRedirectPolicy (registration : DynamicRegistration) : Except APIError Unit :=
  match registration.redirect_uris with
  | none => .ok ()
  | some redirectUris =>
    if !redirectUris.contains CURSOR_MCP_REDIRECT_URI then .ok ()
    else if isCursorMcpPublicClientRegistration registration then .ok ()
    else .error (.error "invalid_redirect_uri"
      ("native private-use redirect URI schemes must be well-formed reverse-domain names, omit " ++
        "the naming authority, and must not use a reserved scheme: " ++ CURSOR_MCP_REDIRECT_URI))

/-! ### Normalizing -/

/-- What is read of a parsed URL. -/
structure ParsedUrl where
  protocol : String
  hostname : String

def isLoopbackHost (hostname : String) : Bool :=
  hostname = "localhost" || hostname = "127.0.0.1" || hostname = "[::1]"

section normalize
variable (parseUrl : String → Option ParsedUrl)

def isSupportedRedirectUri (uri : String) (applicationType : Option String) : Bool :=
  if uri = CURSOR_MCP_REDIRECT_URI then true
  else
    match parseUrl uri with
    | none => false
    | some parsed =>
      if applicationType = some "native" then
        parsed.protocol = "http:" || parsed.protocol = "https:"
      else parsed.protocol = "https:" && !isLoopbackHost parsed.hostname

/-- Grant types by default; the Cursor profile registers as native. -/
def resolveRegistration (registration : DynamicRegistration) : NormalizedRegistration :=
  let grantTypes := registration.grant_types.getD [AUTHORIZATION_CODE_GRANT_TYPE]
  if isCursorMcpPublicClientRegistration registration then
    { registration with
      grant_types := some grantTypes, application_type := some "native", granted := rfl }
  else { registration with grant_types := some grantTypes, granted := rfl }

/-- Keeps the redirect URIs that the client can be redirected to. -/
def filterRedirectUris (resolved : NormalizedRegistration) : NormalizedRegistration :=
  { resolved with
    redirect_uris := resolved.redirect_uris.map fun uris =>
      uris.filter fun uri => isSupportedRedirectUri parseUrl uri resolved.application_type }

/-- Response types by default. -/
def defaultResponseTypes (filtered : NormalizedRegistration) : NormalizedRegistration :=
  if filtered.response_types.isSome then filtered
  else if !filtered.grantTypes.contains AUTHORIZATION_CODE_GRANT_TYPE then filtered
  else { filtered with response_types := some ["code"] }

def normalizeDynamicRegistration (registration : DynamicRegistration) : NormalizedRegistration :=
  defaultResponseTypes (filterRedirectUris parseUrl (resolveRegistration registration))

/-! ### Admitting -/

def assertUsableRedirectUris (requested : DynamicRegistration)
    (normalized : NormalizedRegistration) : Except APIError Unit :=
  match requested.redirect_uris with
  | none | some [] => .ok ()
  | some offered =>
    if normalized.redirect_uris.any fun uris => !uris.isEmpty then .ok ()
    else .error (.error "invalid_redirect_uri"
      (if requested.application_type = some "native" then
        "native clients require http or https redirect URIs: " ++ ", ".intercalate offered
      else
        "web clients require https redirect URIs on non-loopback hosts: " ++
          ", ".intercalate offered))

def assertDynamicRegistration (registration : NormalizedRegistration) (mcpResource : String) :
    Except APIError Unit :=
  let grants := keepFirst id [] registration.grantTypes
  if registration.token_endpoint_auth_method ≠ "none" ∨
      (registration.subject_type ≠ none ∧ registration.subject_type ≠ some "public") ∨
      registration.dpop_bound_access_tokens = some true ∨
      AUTHORIZATION_CODE_GRANT_TYPE ∉ grants ∨
      grants.length ≠ (if "refresh_token" ∈ grants then 2 else 1) ∨
      registration.response_types ≠ some ["code"] ∨
      registration.redirect_uris = none ∨ registration.redirect_uris = some [] ∨
      (registration.resources ≠ none ∧ registration.resources ≠ some [mcpResource]) then
    .error invalidRegistration
  else .ok ()

/-- The body a request goes on with. -/
def normalizedRegistration (mcpResource : String) (body : Data) :
    Except APIError NormalizedRegistration :=
  match decodeDynamicRegistration body with
  | none => .error invalidRegistration
  | some decoded => do
    assertCursorRedirectPolicy decoded
    let normalized := normalizeDynamicRegistration parseUrl decoded
    assertUsableRedirectUris decoded normalized
    assertDynamicRegistration normalized mcpResource
    return normalized

end normalize

/-! ### Registrations as bodies -/

theorem lookup_optionalMember (name key : String) (value : Option Data) :
    (optionalMember key value).reverse.lookup name = if name = key then value else none := by
  cases value with
  | none => simp [optionalMember]
  | some value =>
    by_cases h : name = key
    · simp [optionalMember, h]
    · have hne : (name == key) = false := beq_eq_false_iff_ne.mpr h
      simp [optionalMember, List.lookup_cons, h, hne]

/-- The member of a key is its field. -/
theorem member_data (registration : DynamicRegistration) (name : String) :
    registration.data.member name =
      ((if name = "dpop_bound_access_tokens" then
        registration.dpop_bound_access_tokens.map .bool else none).or
      ((if name = "subject_type" then registration.subject_type.map .string else none).or
      ((if name = "resources" then registration.resources.map stringsData else none).or
      ((if name = "application_type" then registration.application_type.map .string else none).or
      ((if name = "redirect_uris" then registration.redirect_uris.map stringsData else none).or
      ((if name = "response_types" then registration.response_types.map stringsData else none).or
      ((if name = "grant_types" then registration.grant_types.map stringsData else none).or
      (if name = "token_endpoint_auth_method" then
        some (.string registration.token_endpoint_auth_method) else none)))))))) := by
  have htoken : [("token_endpoint_auth_method",
      Data.string registration.token_endpoint_auth_method)].lookup name =
        if name = "token_endpoint_auth_method" then
          some (.string registration.token_endpoint_auth_method) else none :=
    lookup_optionalMember name "token_endpoint_auth_method" (some _)
  simp only [DynamicRegistration.data, Data.member, List.reverse_cons, List.reverse_append,
    List.lookup_append, lookup_optionalMember, htoken, Option.or_assoc]

theorem optionalStrings_data (items : Option (List String)) :
    optionalStrings (items.map stringsData) = some items := by
  cases items with
  | none => rfl
  | some items => exact congrArg (Option.map some) (mapM_stringItem items)

theorem optionalString_data (s : Option String) :
    optionalString (s.map .string) = some s := by cases s <;> rfl

theorem optionalBoolean_data (b : Option Bool) :
    optionalBoolean (b.map .bool) = some b := by cases b <;> rfl

/-- A registration is decoded from its body. -/
theorem decodeDynamicRegistration_data (registration : DynamicRegistration) :
    decodeDynamicRegistration registration.data = some registration := by
  have hserver : (serverKeys.all fun key => (registration.data.member key).isNone) = true := by
    simp [serverKeys, member_data]
  unfold decodeDynamicRegistration
  simp only [hserver, if_true]
  simp [member_data, optionalStrings_data, optionalString_data, optionalBoolean_data, stringItem]

/-! ### What normalizing does -/

section registered
variable {parseUrl : String → Option ParsedUrl} {mcpResource : String} {body : Data}
  {requested : DynamicRegistration} {registration : NormalizedRegistration}

theorem NormalizedRegistration.eq_of {r r' : NormalizedRegistration}
    (h : r.toDynamicRegistration = r'.toDynamicRegistration) : r = r' := by
  cases r
  cases r'
  cases h
  rfl

/-- The fields of a normalized registration. -/
structure Normalizes (parseUrl : String → Option ParsedUrl) (requested : DynamicRegistration)
    (registration : NormalizedRegistration) : Prop where
  authentication :
    registration.token_endpoint_auth_method = requested.token_endpoint_auth_method
  grants : registration.grant_types =
    some (requested.grant_types.getD [AUTHORIZATION_CODE_GRANT_TYPE])
  type : registration.application_type =
    if isCursorMcpPublicClientRegistration requested then some "native"
    else requested.application_type
  redirects : registration.redirect_uris = requested.redirect_uris.map fun uris =>
    uris.filter fun uri => isSupportedRedirectUri parseUrl uri registration.application_type
  /-- Response types that the request names are kept. -/
  responses : requested.response_types.isSome = true →
    registration.response_types = requested.response_types
  resources : registration.resources = requested.resources
  subject : registration.subject_type = requested.subject_type
  dpop : registration.dpop_bound_access_tokens = requested.dpop_bound_access_tokens

theorem resolveRegistration_cursor (h : isCursorMcpPublicClientRegistration requested = true) :
    (resolveRegistration requested).toDynamicRegistration =
      { requested with
        grant_types := some (requested.grant_types.getD [AUTHORIZATION_CODE_GRANT_TYPE])
        application_type := some "native" } :=
  congrArg NormalizedRegistration.toDynamicRegistration (if_pos h)

theorem resolveRegistration_plain
    (h : ¬ isCursorMcpPublicClientRegistration requested = true) :
    (resolveRegistration requested).toDynamicRegistration =
      { requested with
        grant_types := some (requested.grant_types.getD [AUTHORIZATION_CODE_GRANT_TYPE]) } :=
  congrArg NormalizedRegistration.toDynamicRegistration (if_neg h)

theorem normalizes_resolved (parseUrl : String → Option ParsedUrl)
    (requested : DynamicRegistration) :
    Normalizes parseUrl requested
      (filterRedirectUris parseUrl (resolveRegistration requested)) := by
  unfold filterRedirectUris
  by_cases h : isCursorMcpPublicClientRegistration requested = true
  · have hresolved := resolveRegistration_cursor h
    constructor <;> simp [hresolved, h]
  · have hresolved := resolveRegistration_plain h
    constructor <;> simp [hresolved, h]

theorem normalizes (parseUrl : String → Option ParsedUrl) (requested : DynamicRegistration) :
    Normalizes parseUrl requested (normalizeDynamicRegistration parseUrl requested) := by
  have hresolved := normalizes_resolved parseUrl requested
  have hresponses : (filterRedirectUris parseUrl (resolveRegistration requested)).response_types =
      requested.response_types := by
    unfold filterRedirectUris
    by_cases h : isCursorMcpPublicClientRegistration requested = true
    · simp [resolveRegistration_cursor h]
    · simp [resolveRegistration_plain h]
  unfold normalizeDynamicRegistration defaultResponseTypes
  split
  · exact hresolved
  next hmissing =>
  split
  · exact hresolved
  -- only the response types differ, and the request names none
  rw [hresponses] at hmissing
  exact { hresolved with responses := fun hsome => absurd hsome hmissing }

/-- The URIs of a normalized registration are those of the request that pass the filter. -/
theorem Normalizes.kept (h : Normalizes parseUrl requested registration) {uris : List String}
    (huris : registration.redirect_uris = some uris) :
    ∃ offered, requested.redirect_uris = some offered ∧ uris = offered.filter fun uri =>
      isSupportedRedirectUri parseUrl uri registration.application_type := by
  have hredirects := h.redirects
  rw [huris] at hredirects
  obtain ⟨offered, hoffered, heq⟩ := Option.map_eq_some_iff.mp hredirects.symm
  exact ⟨offered, hoffered, heq.symm⟩

/-- What the last check establishes. -/
structure Admitted (mcpResource : String) (registration : NormalizedRegistration) : Prop where
  authentication : registration.token_endpoint_auth_method = "none"
  grant : AUTHORIZATION_CODE_GRANT_TYPE ∈ registration.grantTypes
  size : (keepFirst id [] registration.grantTypes).length =
    if "refresh_token" ∈ registration.grantTypes then 2 else 1
  responses : registration.response_types = some ["code"]
  redirects : ∃ uris, registration.redirect_uris = some uris ∧ uris ≠ []

theorem admitted_of_assert (h : assertDynamicRegistration registration mcpResource = .ok ()) :
    Admitted mcpResource registration := by
  unfold assertDynamicRegistration at h
  simp only [mem_keepFirst_id] at h
  obtain ⟨-, hrefused⟩ | ⟨hnot, -⟩ := ite_eq_iff.mp h
  · cases hrefused
  simp only [not_or, not_not] at hnot
  obtain ⟨hauth, -, -, hgrant, hsize, hresponses, hsome, hne, -⟩ := hnot
  obtain ⟨uris, huris⟩ := Option.ne_none_iff_exists'.mp hsome
  exact ⟨hauth, hgrant, hsize, hresponses, uris, huris, fun hnil => hne (by rw [huris, hnil])⟩

/-! ### The profile -/

/-- What `isCursorMcpPublicClientRegistration` asks for. -/
structure CursorProfile (registration : DynamicRegistration) : Prop where
  type : registration.application_type = none ∨ registration.application_type = some "web" ∨
    registration.application_type = some "native"
  authentication : registration.token_endpoint_auth_method = "none"
  redirects : ∃ uris, registration.redirect_uris = some uris ∧
    CURSOR_MCP_REDIRECT_URI ∈ uris ∧
    ∀ uri ∈ uris, uri ∈ CURSOR_MCP_REDIRECT_URIS
  grant : AUTHORIZATION_CODE_GRANT_TYPE ∈
    registration.grant_types.getD [AUTHORIZATION_CODE_GRANT_TYPE]
  grants : ∀ grantType ∈ registration.grant_types.getD [AUTHORIZATION_CODE_GRANT_TYPE],
    grantType = AUTHORIZATION_CODE_GRANT_TYPE ∨ grantType = "refresh_token"
  response : registration.response_types.getD ["code"] ≠ []
  responses : ∀ responseType ∈ registration.response_types.getD ["code"], responseType = "code"

theorem isCursor_iff {registration : DynamicRegistration} :
    isCursorMcpPublicClientRegistration registration = true ↔ CursorProfile registration := by
  unfold isCursorMcpPublicClientRegistration
  constructor
  · intro h
    dsimp only at h
    split at h
    · cases h
    next htype =>
    simp only [Bool.and_eq_true, decide_eq_true_eq, Option.any_eq_true, Bool.not_eq_true',
      List.isEmpty_eq_false_iff, List.contains_iff_mem, List.all_eq_true, Bool.or_eq_true] at h
    obtain ⟨⟨⟨⟨⟨hauth, uris, huris, ⟨-, hcursor⟩, hall⟩, hgrant⟩,
        hgrants⟩, hresponse⟩,
      hresponses⟩ := h
    refine ⟨?_, hauth, ⟨uris, huris, hcursor, hall⟩, hgrant, hgrants, hresponse, hresponses⟩
    tauto
  · intro h
    obtain ⟨uris, huris, hcursor, hall⟩ := h.redirects
    have htype := h.type
    rw [if_neg (by tauto)]
    simp only [Bool.and_eq_true, decide_eq_true_eq, Option.any_eq_true, Bool.not_eq_true',
      List.isEmpty_eq_false_iff, List.contains_iff_mem, List.all_eq_true, Bool.or_eq_true]
    exact ⟨⟨⟨⟨⟨h.authentication, uris, huris,
      ⟨List.ne_nil_of_mem hcursor, hcursor⟩, hall⟩,
      h.grant⟩, h.grants⟩, h.response⟩, h.responses⟩

/-- A request for the Cursor callback has to match the profile. -/
theorem cursor_of_assert (h : assertCursorRedirectPolicy requested = .ok ()) {uris : List String}
    (huris : requested.redirect_uris = some uris) (hmem : CURSOR_MCP_REDIRECT_URI ∈ uris) :
    isCursorMcpPublicClientRegistration requested = true := by
  unfold assertCursorRedirectPolicy at h
  rw [huris] at h
  simp only [List.contains_iff_mem.mpr hmem, Bool.not_true, Bool.false_eq_true, if_false] at h
  split at h
  · assumption
  · cases h

theorem assertCursor_ok (h : ∀ uris, requested.redirect_uris = some uris →
    CURSOR_MCP_REDIRECT_URI ∈ uris → isCursorMcpPublicClientRegistration requested = true) :
    assertCursorRedirectPolicy requested = .ok () := by
  unfold assertCursorRedirectPolicy
  split
  · rfl
  · next uris huris =>
    split
    · rfl
    · next hmem =>
      rw [if_pos (h uris huris (by simpa using hmem))]

/-- A client that can be redirected somewhere passes. -/
theorem assertUsable_ok (h : ∃ uris, registration.redirect_uris = some uris ∧ uris ≠ []) :
    assertUsableRedirectUris requested registration = .ok () := by
  obtain ⟨uris, huris, hne⟩ := h
  unfold assertUsableRedirectUris
  split
  · rfl
  · rfl
  · rw [huris]
    exact if_pos (by simpa using hne)

/-- The callback passes the filter of any application type. -/
theorem isSupported_cursor (applicationType : Option String) :
    isSupportedRedirectUri parseUrl CURSOR_MCP_REDIRECT_URI applicationType = true := if_pos rfl

theorem assert_bind_eq_ok {α : Type} {x : Except APIError Unit} {f : Unit → Except APIError α}
    {a : α} : (x >>= f) = .ok a ↔ x = .ok () ∧ f () = .ok a := by
  cases x with
  | error e => exact ⟨fun h => (nomatch h), fun h => (nomatch h.1)⟩
  | ok u => exact ⟨fun h => ⟨rfl, h⟩, fun h => h.2⟩

/-- The checks that a request passes, and what it goes on with. -/
theorem normalizedRegistration_eq_ok :
    normalizedRegistration parseUrl mcpResource body = .ok registration ↔
      ∃ requested, decodeDynamicRegistration body = some requested ∧
        assertCursorRedirectPolicy requested = .ok () ∧
        registration = normalizeDynamicRegistration parseUrl requested ∧
        assertUsableRedirectUris requested registration = .ok () ∧
        assertDynamicRegistration registration mcpResource = .ok () := by
  unfold normalizedRegistration
  cases hdecode : decodeDynamicRegistration body with
  | none => simp
  | some requested =>
    simp only [Option.some.injEq, exists_eq_left', assert_bind_eq_ok]
    constructor
    · rintro ⟨hcursor, husable, hdynamic, heq⟩
      cases heq
      exact ⟨hcursor, rfl, husable, hdynamic⟩
    · rintro ⟨hcursor, rfl, husable, hdynamic⟩
      exact ⟨hcursor, husable, hdynamic, rfl⟩

/-! ### Safe registrations -/

/-- Where a client may be redirected to. -/
inductive SafeRedirect (parseUrl : String → Option ParsedUrl) (requested : DynamicRegistration)
    (registration : NormalizedRegistration) (uri : String) : Prop where
  | web (url : ParsedUrl) : parseUrl uri = some url → url.protocol = "https:" →
      isLoopbackHost url.hostname = false → SafeRedirect parseUrl requested registration uri
  | native (url : ParsedUrl) : registration.application_type = some "native" →
      parseUrl uri = some url → url.protocol = "http:" ∨ url.protocol = "https:" →
      SafeRedirect parseUrl requested registration uri
  /-- The Cursor callback, of a request that matches the profile. -/
  | cursor : uri = CURSOR_MCP_REDIRECT_URI → CursorProfile requested →
      SafeRedirect parseUrl requested registration uri

/-- A public client with the authorization code flow. -/
structure SafeRegistration (parseUrl : String → Option ParsedUrl)
    (requested : DynamicRegistration) (registration : NormalizedRegistration) : Prop where
  authentication : registration.token_endpoint_auth_method = "none"
  grants : (∀ grantType, grantType ∈ registration.grantTypes ↔
      grantType = AUTHORIZATION_CODE_GRANT_TYPE) ∨
    ∀ grantType, grantType ∈ registration.grantTypes ↔
      grantType = AUTHORIZATION_CODE_GRANT_TYPE ∨ grantType = "refresh_token"
  responses : registration.response_types = some ["code"]
  redirects : ∃ uris offered, registration.redirect_uris = some uris ∧
    requested.redirect_uris = some offered ∧ uris ≠ [] ∧ uris.Sublist offered ∧
    ∀ uri ∈ uris, SafeRedirect parseUrl requested registration uri

/-- A set of this size with the grant type has nothing but what is named. -/
theorem Admitted.grants (h : Admitted mcpResource registration) :
    (∀ grantType, grantType ∈ registration.grantTypes ↔
      grantType = AUTHORIZATION_CODE_GRANT_TYPE) ∨
    ∀ grantType, grantType ∈ registration.grantTypes ↔
      grantType = AUTHORIZATION_CODE_GRANT_TYPE ∨ grantType = "refresh_token" := by
  have hmem : ∀ g, g ∈ keepFirst id [] registration.grantTypes ↔
      g ∈ registration.grantTypes :=
    fun _ => mem_keepFirst_id
  have hsize := h.size
  by_cases hrefresh : "refresh_token" ∈ registration.grantTypes
  · right
    rw [if_pos hrefresh, List.length_eq_two] at hsize
    obtain ⟨one, two, hpair⟩ := hsize
    have hgrant := (hmem _).mpr h.grant
    have hrefresh' := (hmem _).mpr hrefresh
    have hne : AUTHORIZATION_CODE_GRANT_TYPE ≠ "refresh_token" := by decide
    rw [hpair, List.mem_pair] at hgrant hrefresh'
    intro g
    rw [← hmem, hpair, List.mem_pair]
    -- the two elements are the two grant types, in one order or the other
    rcases hgrant with hone | htwo <;> rcases hrefresh' with hone' | htwo'
    · exact absurd (hone.trans hone'.symm) hne
    · rw [hone, htwo']
    · rw [htwo, hone']
      exact or_comm
    · exact absurd (htwo.trans htwo'.symm) hne
  · left
    rw [if_neg hrefresh, List.length_eq_one_iff] at hsize
    obtain ⟨only, honly⟩ := hsize
    have hgrant := (hmem _).mpr h.grant
    rw [honly, List.mem_singleton] at hgrant
    intro g
    rw [← hmem, honly, List.mem_singleton, hgrant]

/-- **Redirects.** What passes the filter is safe. -/
theorem safeRedirect_of_supported {uri : String}
    (h : isSupportedRedirectUri parseUrl uri registration.application_type = true)
    (hcursor : uri = CURSOR_MCP_REDIRECT_URI → CursorProfile requested) :
    SafeRedirect parseUrl requested registration uri := by
  unfold isSupportedRedirectUri at h
  split at h
  · next heq => exact .cursor heq (hcursor heq)
  split at h
  · cases h
  next url hurl =>
  split at h
  · next hnative =>
    simp only [Bool.or_eq_true, decide_eq_true_eq] at h
    exact .native url hnative hurl h
  · simp only [Bool.and_eq_true, decide_eq_true_eq, Bool.not_eq_true'] at h
    exact .web url hurl h.1 h.2

theorem safeRegistration (hcursor : assertCursorRedirectPolicy requested = .ok ())
    (hnormal : Normalizes parseUrl requested registration)
    (hadmitted : Admitted mcpResource registration) :
    SafeRegistration parseUrl requested registration := by
  obtain ⟨uris, huris, hne⟩ := hadmitted.redirects
  obtain ⟨offered, hoffered, rfl⟩ := hnormal.kept huris
  refine ⟨hadmitted.authentication, hadmitted.grants, hadmitted.responses, _, offered, huris,
    hoffered, hne, List.filter_sublist, ?_⟩
  intro uri huri
  obtain ⟨hmem, hsupported⟩ := List.mem_filter.mp huri
  apply safeRedirect_of_supported hsupported
  rintro rfl
  exact isCursor_iff.mp (cursor_of_assert hcursor hoffered hmem)

/-! ### Registering again -/

/-- The profile survives normalizing. -/
theorem CursorProfile.normalized (h : CursorProfile requested)
    (hnormal : Normalizes parseUrl requested registration)
    (hadmitted : Admitted mcpResource registration) :
    CursorProfile registration.toDynamicRegistration := by
  obtain ⟨uris, huris, hmem, hall⟩ := h.redirects
  have htype : registration.application_type = some "native" := by
    rw [hnormal.type, if_pos (isCursor_iff.mpr h)]
  have hredirects : registration.redirect_uris = some (uris.filter fun uri =>
      isSupportedRedirectUri parseUrl uri registration.application_type) := by
    rw [hnormal.redirects, huris, Option.map_some]
  have hgrants : registration.grant_types.getD [AUTHORIZATION_CODE_GRANT_TYPE] =
      requested.grant_types.getD [AUTHORIZATION_CODE_GRANT_TYPE] := by
    rw [hnormal.grants, Option.getD_some]
  have hresponses : registration.response_types.getD ["code"] = ["code"] := by
    rw [hadmitted.responses, Option.getD_some]
  exact
    { type := .inr (.inr htype)
      authentication := hadmitted.authentication
      redirects := ⟨_, hredirects, List.mem_filter.mpr ⟨hmem, isSupported_cursor _⟩,
        fun uri huri => hall uri (List.mem_filter.mp huri).1⟩
      grant := hgrants ▸ h.grant
      grants := hgrants ▸ h.grants
      response := by simp [hresponses]
      responses := by simp [hresponses] }

/-- The callback is kept of a request for it only, and that matches the profile. -/
theorem profile_of_kept (hcursor : assertCursorRedirectPolicy requested = .ok ())
    (hnormal : Normalizes parseUrl requested registration) {uris : List String}
    (huris : registration.redirect_uris = some uris) (hmem : CURSOR_MCP_REDIRECT_URI ∈ uris) :
    isCursorMcpPublicClientRegistration requested = true := by
  obtain ⟨offered, hoffered, rfl⟩ := hnormal.kept huris
  exact cursor_of_assert hcursor hoffered (List.mem_filter.mp hmem).1

/-- **Normal form.** An admitted registration is normalized to itself. -/
theorem normalize_normalized (hcursor : assertCursorRedirectPolicy requested = .ok ())
    (hnormal : Normalizes parseUrl requested registration)
    (hadmitted : Admitted mcpResource registration) :
    normalizeDynamicRegistration parseUrl registration.toDynamicRegistration = registration := by
  have hagain := normalizes parseUrl registration.toDynamicRegistration
  have htype : (normalizeDynamicRegistration parseUrl
      registration.toDynamicRegistration).application_type = registration.application_type := by
    rw [hagain.type]
    split
    · next h =>
      -- a profile has been registered as native before
      obtain ⟨uris, huris, hmem, -⟩ := (isCursor_iff.mp h).redirects
      rw [hnormal.type, if_pos (profile_of_kept hcursor hnormal huris hmem)]
    · rfl
  have hgrants : (normalizeDynamicRegistration parseUrl
      registration.toDynamicRegistration).grant_types = registration.grant_types := by
    rw [hagain.grants, hnormal.grants, Option.getD_some]
  have hredirects : (normalizeDynamicRegistration parseUrl
      registration.toDynamicRegistration).redirect_uris = registration.redirect_uris := by
    rw [hagain.redirects, htype, hnormal.redirects, Option.map_map]
    congr 1
    funext uris
    exact List.filter_filter.trans (by simp)
  have hresponses := hagain.responses (by rw [hadmitted.responses]; rfl)
  exact NormalizedRegistration.eq_of (DynamicRegistration.ext hagain.authentication hgrants
    hresponses hredirects htype hagain.resources hagain.subject hagain.dpop)

/-- **Registration.** A request that is admitted registers a safe client, and
    the registration is admitted as it is. -/
theorem normalizedRegistration_safe
    (h : normalizedRegistration parseUrl mcpResource body = .ok registration) :
    (∃ requested, decodeDynamicRegistration body = some requested ∧
      SafeRegistration parseUrl requested registration) ∧
    normalizedRegistration parseUrl mcpResource registration.data = .ok registration := by
  obtain ⟨requested, hdecode, hcursor, rfl, husable, hdynamic⟩ :=
    normalizedRegistration_eq_ok.mp h
  have hnormal := normalizes parseUrl requested
  have hadmitted := admitted_of_assert hdynamic
  refine ⟨⟨requested, hdecode, safeRegistration hcursor hnormal hadmitted⟩, ?_⟩
  rw [normalizedRegistration_eq_ok]
  refine ⟨_, decodeDynamicRegistration_data _, ?_,
    (normalize_normalized hcursor hnormal hadmitted).symm, ?_, hdynamic⟩
  · apply assertCursor_ok
    intro uris huris hmem
    have hprofile := profile_of_kept hcursor hnormal huris hmem
    exact isCursor_iff.mpr ((isCursor_iff.mp hprofile).normalized hnormal hadmitted)
  · exact assertUsable_ok hadmitted.redirects

end registered

/-! ### A sample client -/

namespace Sample

/-- What the platform reads of the URLs of the sample. -/
def parseUrl (uri : String) : Option ParsedUrl :=
  if uri = CURSOR_CLOUD_CALLBACK_URI then some ⟨"https:", "www.cursor.com"⟩
  else if uri = CURSOR_LOOPBACK_CALLBACK_URI then some ⟨"http:", "localhost"⟩
  else if uri = CURSOR_MCP_REDIRECT_URI then some ⟨"cursor:", "anysphere.cursor-mcp"⟩
  else none

/-- Cursor, as it registers. -/
def cursorBody : Data :=
  .object
    [("token_endpoint_auth_method", .string "none"),
      ("grant_types", stringsData ["authorization_code", "refresh_token"]),
      ("response_types", stringsData ["code"]),
      ("redirect_uris", stringsData [CURSOR_CLOUD_CALLBACK_URI, CURSOR_LOOPBACK_CALLBACK_URI,
        CURSOR_MCP_REDIRECT_URI])]

end Sample

open Sample in
theorem normalizedRegistration_safe_cursor : ∃ requested registration,
    normalizedRegistration parseUrl "https://api.example.com/mcp" cursorBody = .ok registration ∧
    SafeRegistration parseUrl requested registration ∧
    normalizedRegistration parseUrl "https://api.example.com/mcp" registration.data =
      .ok registration := by
  have hok : (normalizedRegistration parseUrl "https://api.example.com/mcp"
      cursorBody).toOption.isSome = true := by decide +kernel
  cases hregister : normalizedRegistration parseUrl "https://api.example.com/mcp" cursorBody with
  | error e =>
    rw [hregister] at hok
    cases hok
  | ok registration =>
    obtain ⟨⟨requested, -, hsafe⟩, hagain⟩ := normalizedRegistration_safe hregister
    exact ⟨requested, registration, rfl, hsafe, hagain⟩

end Umail
