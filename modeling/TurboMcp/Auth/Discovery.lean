import Mathlib.Data.List.DropRight
import TurboMcp.Auth.Challenge
import TurboMcp.Core.Serde
import TurboMcp.Lib.Traces

/-!
# Discovering the authorization server

The client fetches the resource's metadata, and the metadata of the first
authorization server it lists, each from the first of some candidate URLs that
has a document.  That document decides; the checks on it are made once.
-/

namespace TurboMcp.Auth

open TurboMcp.Core TurboMcp.Lib

/-! ## Documents -/

/-- Protected resource metadata. -/
structure ProtectedResourceMetadata where
  resource : String
  authorizationServers : List String
  scopesSupported : Option (List String)
  deriving DecidableEq

namespace ProtectedResourceMetadata

def decode (v : Value) : Option ProtectedResourceMetadata := do
  let m ← structFields ["resource", "authorization_servers", "scopes_supported"] v
  let resource ← stringField m "resource"
  let authorizationServers ← vecField m "authorization_servers" Value.asStr
  let scopesSupported ← optionField m "scopes_supported" (decodeVec Value.asStr)
  pure { resource, authorizationServers, scopesSupported }

end ProtectedResourceMetadata

/-- Authorization server metadata. -/
structure AuthorizationServerMetadata where
  issuer : String
  authorizationEndpoint : String
  tokenEndpoint : String
  registrationEndpoint : Option String
  codeChallengeMethodsSupported : Option (List String)
  clientIdMetadataDocumentSupported : Option Bool
  authorizationResponseIssParameterSupported : Option Bool
  scopesSupported : Option (List String)
  deriving DecidableEq

namespace AuthorizationServerMetadata

def decode (v : Value) : Option AuthorizationServerMetadata := do
  let m ← structFields
    ["issuer", "authorization_endpoint", "token_endpoint", "registration_endpoint",
      "code_challenge_methods_supported", "client_id_metadata_document_supported",
      "authorization_response_iss_parameter_supported", "scopes_supported"] v
  let issuer ← stringField m "issuer"
  let authorizationEndpoint ← stringField m "authorization_endpoint"
  let tokenEndpoint ← stringField m "token_endpoint"
  let registrationEndpoint ← optionField m "registration_endpoint" Value.asStr
  let codeChallengeMethodsSupported ←
    optionField m "code_challenge_methods_supported" (decodeVec Value.asStr)
  let clientIdMetadataDocumentSupported ←
    optionField m "client_id_metadata_document_supported" Value.asBool
  let authorizationResponseIssParameterSupported ←
    optionField m "authorization_response_iss_parameter_supported" Value.asBool
  let scopesSupported ← optionField m "scopes_supported" (decodeVec Value.asStr)
  pure
    { issuer, authorizationEndpoint, tokenEndpoint, registrationEndpoint,
      codeChallengeMethodsSupported, clientIdMetadataDocumentSupported,
      authorizationResponseIssParameterSupported, scopesSupported }

/-- PKCE methods are advertised. -/
def hasPkce (server : AuthorizationServerMetadata) : Bool :=
  server.codeChallengeMethodsSupported.any fun m => !m.isEmpty

end AuthorizationServerMetadata

/-- Everything discovery produced for one server. -/
structure Discovered where
  resource : ProtectedResourceMetadata
  server : AuthorizationServerMetadata
  deriving DecidableEq

inductive OAuthClientError
  | discovery (detail : String)
  | pkceUnsupported
  | registration (detail : String)
  | issuerChanged (expected discovered : String)
  | authorization (detail : String)
  | issuerMismatch (expected got : String)
  | tokenExchange (detail : String)
  deriving DecidableEq

/-! ## Effects -/

structure TokenSet where
  accessToken : String
  refreshToken : Option String
  expiresAtEpochSecs : Option Nat
  scopes : List String
  deriving DecidableEq

/-- The exchange of a code, and where it is sent. -/
structure CodeExchange where
  tokenEndpoint : String
  clientId : String
  clientSecret : Option String
  redirectUri : String
  code : String
  pkceVerifier : String
  resource : String
  deriving DecidableEq

/-- What the client asks of its surroundings. -/
inductive OAuthEffect
  | get (url : String)
  | exchange (request : CodeExchange)
  | now
  | storeTokens (issuer resource : String) (tokens : TokenSet)
  deriving DecidableEq

/-- A response to a GET; its body may not be JSON. -/
structure JsonResponse where
  status : Nat
  body : Except String Value

/-- What a token endpoint grants. -/
structure TokenResponse where
  accessToken : String
  refreshToken : Option String
  expiresIn : Option Nat
  scopes : Option (List String)

abbrev OAuthEffect.Reply : OAuthEffect → Type
  | get _ => Except String JsonResponse
  | exchange _ => Except String TokenResponse
  | now => Nat
  | storeTokens _ _ _ => Unit

abbrev OAuthProgram := Program OAuthEffect OAuthEffect.Reply

/-! ## Candidates -/

/-- `url::Url`, as far as it is looked at. -/
structure ParsedUrl where
  scheme : String
  host : Option String
  port : Option Nat
  path : String

/-- `str::trim_end_matches('/')`. -/
def trimSlashes (s : String) : String := String.ofList (s.toList.rdropWhile (· = '/'))

namespace ParsedUrl

def origin (url : ParsedUrl) : String :=
  url.scheme ++ "://" ++
    match url.host with
    | none => ""
    | some host =>
        match url.port with
        | none => host
        | some port => host ++ ":" ++ toString port

def protectedResourceCandidates (url : ParsedUrl) : List String :=
  let path := trimSlashes url.path
  (if path ≠ "" then [url.origin ++ "/.well-known/oauth-protected-resource" ++ path] else []) ++
    [url.origin ++ "/.well-known/oauth-protected-resource"]

def authorizationServerCandidates (url : ParsedUrl) : List String :=
  let path := trimSlashes url.path
  if path = "" then
    [url.origin ++ "/.well-known/oauth-authorization-server",
      url.origin ++ "/.well-known/openid-configuration"]
  else
    [url.origin ++ "/.well-known/oauth-authorization-server" ++ path,
      url.origin ++ "/.well-known/openid-configuration" ++ path,
      url.origin ++ path ++ "/.well-known/openid-configuration"]

end ParsedUrl

/-! ## Fetching -/

section

-- `Url::parse`, the text of a status, and what serde says of a document it cannot read
variable (parseUrl : String → Except String ParsedUrl) (statusText : Nat → String)
  (serdeText : Value → String)

def fetchJson {α : Type} (decode : Value → Option α) : Except String JsonResponse → Except String α
  | .error e => .error e
  | .ok resp =>
      if ¬ (200 ≤ resp.status ∧ resp.status < 300) then .error ("HTTP " ++ statusText resp.status)
      else
        match resp.body with
        | .error e => .error e
        | .ok v =>
            match decode v with
            | none => .error (serdeText v)
            | some doc => .ok doc

/-- The loop over the candidates: the first document fetched is checked, and
decides. -/
def firstDocument {α β : Type} (decode : Value → Option α)
    (check : String → α → Except OAuthClientError β) (unavailable : String → OAuthClientError) :
    List String → String → OAuthProgram (Except OAuthClientError β)
  | [], lastError => pure (.error (unavailable lastError))
  | candidate :: rest, _ => do
      let reply ← Program.perform (OAuthEffect.get candidate)
      match fetchJson statusText serdeText decode reply with
      | .ok doc => pure (check candidate doc)
      | .error e => firstDocument decode check unavailable rest (candidate ++ ": " ++ e)

/-- A resource's metadata that lists an authorization server. -/
abbrev ListingMetadata := { doc : ProtectedResourceMetadata // doc.authorizationServers ≠ [] }

def checkResource (candidate : String) (doc : ProtectedResourceMetadata) :
    Except OAuthClientError ListingMetadata :=
  if h : doc.authorizationServers ≠ [] then .ok ⟨doc, h⟩
  else
    .error (.discovery
      ("protected resource metadata at " ++ candidate ++ " lists no authorization_servers"))

def resourceCandidates (resourceUrl : String) (challengeMetadataUrl : Option String) :
    Except OAuthClientError (List String) :=
  match challengeMetadataUrl with
  | some url => .ok [url]
  | none =>
      match parseUrl resourceUrl with
      | .error e => .error (.discovery ("invalid resource URL: " ++ e))
      | .ok url => .ok url.protectedResourceCandidates

def discoverProtectedResource (resourceUrl : String) (challengeMetadataUrl : Option String) :
    OAuthProgram (Except OAuthClientError ListingMetadata) :=
  match resourceCandidates parseUrl resourceUrl challengeMetadataUrl with
  | .error e => pure (.error e)
  | .ok candidates =>
      firstDocument statusText serdeText ProtectedResourceMetadata.decode checkResource
        (fun lastError => .discovery
          ("protected resource metadata unavailable (" ++ lastError ++ ")"))
        candidates "no candidate URLs"

def checkServer (issuer : String) (_candidate : String) (doc : AuthorizationServerMetadata) :
    Except OAuthClientError AuthorizationServerMetadata :=
  if trimSlashes doc.issuer ≠ trimSlashes issuer then
    .error (.discovery
      ("authorization server metadata issuer mismatch: document says " ++ doc.issuer ++
        ", expected " ++ issuer))
  else if !doc.hasPkce then .error .pkceUnsupported
  else .ok doc

def serverCandidates (issuer : String) : Except OAuthClientError (List String) :=
  match parseUrl issuer with
  | .error e => .error (.discovery ("invalid issuer URL: " ++ e))
  | .ok url => .ok url.authorizationServerCandidates

def discoverAuthorizationServer (issuer : String) :
    OAuthProgram (Except OAuthClientError AuthorizationServerMetadata) :=
  match serverCandidates parseUrl issuer with
  | .error e => pure (.error e)
  | .ok candidates =>
      firstDocument statusText serdeText AuthorizationServerMetadata.decode (checkServer issuer)
        (fun lastError => .discovery
          ("authorization server metadata unavailable (" ++ lastError ++ ")"))
        candidates "no candidate URLs"

/-- `OAuthClient::discover`. -/
def discover (resource : String) (challenge : Option BearerChallenge) :
    OAuthProgram (Except OAuthClientError Discovered) := do
  let resourceMeta ← discoverProtectedResource parseUrl statusText serdeText resource
    (challenge.bind BearerChallenge.resourceMetadata)
  match resourceMeta with
  | .error e => pure (.error e)
  | .ok resourceMeta => do
      let issuer := resourceMeta.1.authorizationServers.head resourceMeta.2
      let server ← discoverAuthorizationServer parseUrl statusText serdeText issuer
      match server with
      | .error e => pure (.error e)
      | .ok server => pure (.ok { resource := resourceMeta.1, server })

end

/-! ## What discovery lets through -/

section

open Lib.Program

/-- What a program did, answer by answer. -/
abbrev OAuthTrace := List (Σ e, OAuthEffect.Reply e)

/-- Nothing but GETs. -/
def OnlyGets (tr : OAuthTrace) : Prop := ∀ x ∈ tr, ∃ url, x.1 = .get url

theorem OnlyGets.append {tr tr' : OAuthTrace} (h : OnlyGets tr) (h' : OnlyGets tr') :
    OnlyGets (tr ++ tr') := by
  intro x hx
  rcases List.mem_append.mp hx with hx | hx
  · exact h x hx
  · exact h' x hx

variable {parseUrl : String → Except String ParsedUrl} {statusText : Nat → String}
  {serdeText : Value → String} {tr : OAuthTrace}

/-- One of the candidates was fetched, and is the document. -/
def Fetched {α : Type} (statusText : Nat → String) (serdeText : Value → String)
    (decode : Value → Option α) (candidates : List String) (tr : OAuthTrace) (doc : α) : Prop :=
  ∃ url ∈ candidates, ∃ reply : Except String JsonResponse,
    (⟨.get url, reply⟩ : Σ e, OAuthEffect.Reply e) ∈ tr ∧
      fetchJson statusText serdeText decode reply = .ok doc

theorem Fetched.mono {α : Type} {decode : Value → Option α} {candidates : List String} {doc : α}
    {tr' : OAuthTrace} (h : Fetched statusText serdeText decode candidates tr doc)
    (hsub : ∀ x ∈ tr, x ∈ tr') : Fetched statusText serdeText decode candidates tr' doc := by
  obtain ⟨url, hurl, reply, hmem, hdoc⟩ := h
  exact ⟨url, hurl, reply, hsub _ hmem, hdoc⟩

/-- **The loop over candidates**: GETs only, and a result comes of a document that
was fetched and passed the check. -/
theorem performs_firstDocument {α β : Type} {decode : Value → Option α}
    {check : String → α → Except OAuthClientError β} {unavailable : String → OAuthClientError}
    {candidates : List String} {lastError : String} {result : Except OAuthClientError β}
    (h : Performs (firstDocument statusText serdeText decode check unavailable candidates lastError)
      tr result) :
    OnlyGets tr ∧ ∀ b, result = .ok b →
      ∃ candidate doc, Fetched statusText serdeText decode candidates tr doc ∧
        check candidate doc = .ok b := by
  induction candidates generalizing lastError tr with
  | nil =>
      obtain ⟨rfl, rfl⟩ := performs_ret.mp h
      refine ⟨fun x hx => absurd hx List.not_mem_nil, ?_⟩
      intro b hb
      cases hb
  | cons candidate rest ih =>
      rw [firstDocument, perform_bind] at h
      obtain ⟨reply, tr', rfl, hrest⟩ := performs_call.mp h
      have hhead : OnlyGets [(⟨.get candidate, reply⟩ : Σ e, OAuthEffect.Reply e)] := by
        intro x hx
        obtain rfl := List.mem_singleton.mp hx
        exact ⟨candidate, rfl⟩
      cases hdoc : fetchJson statusText serdeText decode reply with
      | ok doc =>
          rw [hdoc] at hrest
          obtain ⟨rfl, rfl⟩ := performs_ret.mp hrest
          refine ⟨hhead, ?_⟩
          intro b hb
          exact ⟨candidate, doc, ⟨candidate, List.mem_cons_self, reply, List.mem_cons_self, hdoc⟩, hb⟩
      | error e =>
          rw [hdoc] at hrest
          obtain ⟨hgets, hresult⟩ := ih hrest
          refine ⟨hhead.append hgets, ?_⟩
          intro b hb
          obtain ⟨candidate', doc, ⟨url, hurl, reply', hmem, hdoc'⟩, hcheck⟩ := hresult b hb
          exact ⟨candidate', doc, ⟨url, List.mem_cons_of_mem _ hurl, reply',
            List.mem_cons_of_mem _ hmem, hdoc'⟩, hcheck⟩

theorem performs_discoverProtectedResource {resourceUrl : String} {challengeUrl : Option String}
    {result : Except OAuthClientError ListingMetadata}
    (h : Performs (discoverProtectedResource parseUrl statusText serdeText resourceUrl challengeUrl)
      tr result) :
    OnlyGets tr ∧ ∀ resourceMeta, result = .ok resourceMeta →
      ∃ candidates, resourceCandidates parseUrl resourceUrl challengeUrl = .ok candidates ∧
        Fetched statusText serdeText ProtectedResourceMetadata.decode candidates tr
          resourceMeta.1 := by
  unfold discoverProtectedResource at h
  split at h
  · obtain ⟨rfl, rfl⟩ := performs_ret.mp h
    refine ⟨fun x hx => absurd hx List.not_mem_nil, ?_⟩
    intro resourceMeta hok
    cases hok
  · rename_i candidates hcandidates
    obtain ⟨hgets, hresult⟩ := performs_firstDocument h
    refine ⟨hgets, ?_⟩
    intro resourceMeta hok
    obtain ⟨candidate, doc, hfetched, hcheck⟩ := hresult resourceMeta hok
    unfold checkResource at hcheck
    split at hcheck
    · cases hcheck
      exact ⟨candidates, hcandidates, hfetched⟩
    · cases hcheck

theorem performs_discoverAuthorizationServer {issuer : String}
    {result : Except OAuthClientError AuthorizationServerMetadata}
    (h : Performs (discoverAuthorizationServer parseUrl statusText serdeText issuer) tr result) :
    OnlyGets tr ∧ ∀ server, result = .ok server →
      ∃ candidates, serverCandidates parseUrl issuer = .ok candidates ∧
        Fetched statusText serdeText AuthorizationServerMetadata.decode candidates tr server ∧
        trimSlashes server.issuer = trimSlashes issuer ∧ server.hasPkce = true := by
  unfold discoverAuthorizationServer at h
  split at h
  · obtain ⟨rfl, rfl⟩ := performs_ret.mp h
    refine ⟨fun x hx => absurd hx List.not_mem_nil, ?_⟩
    intro server hok
    cases hok
  · rename_i candidates hcandidates
    obtain ⟨hgets, hresult⟩ := performs_firstDocument h
    refine ⟨hgets, ?_⟩
    intro server hok
    obtain ⟨candidate, doc, hfetched, hcheck⟩ := hresult server hok
    unfold checkServer at hcheck
    split at hcheck
    · cases hcheck
    · rename_i hissuer
      split at hcheck
      · cases hcheck
      · rename_i hpkce
        cases hcheck
        exact ⟨candidates, hcandidates, hfetched, not_ne_iff.mp hissuer, by simpa using hpkce⟩

/-- **What discovery lets through**: it only GETs, and comes to a result only with a
resource document from one of its candidates that lists an authorization server,
and a document from one of the candidates of the first one listed, whose issuer is
that one up to slashes at the end, and which advertises some PKCE method. -/
theorem discover_checks (parseUrl : String → Except String ParsedUrl) (statusText : Nat → String)
    (serdeText : Value → String) (resource : String) (challenge : Option BearerChallenge)
    (tr : OAuthTrace) (result : Except OAuthClientError Discovered)
    (h : Performs (discover parseUrl statusText serdeText resource challenge) tr result) :
    OnlyGets tr ∧ ∀ d, result = .ok d →
      ∃ issuer rest candidates candidates',
        d.resource.authorizationServers = issuer :: rest ∧
        resourceCandidates parseUrl resource (challenge.bind BearerChallenge.resourceMetadata) =
          .ok candidates ∧
        Fetched statusText serdeText ProtectedResourceMetadata.decode candidates tr d.resource ∧
        serverCandidates parseUrl issuer = .ok candidates' ∧
        Fetched statusText serdeText AuthorizationServerMetadata.decode candidates' tr d.server ∧
        trimSlashes d.server.issuer = trimSlashes issuer ∧ d.server.hasPkce = true := by
  obtain ⟨first, second, resourceMeta, rfl, hfirst, hsecond⟩ := performs_bind.mp h
  obtain ⟨hgets, hmeta⟩ := performs_discoverProtectedResource hfirst
  cases resourceMeta with
  | error e =>
      obtain ⟨rfl, rfl⟩ := performs_ret.mp hsecond
      refine ⟨hgets.append fun x hx => absurd hx List.not_mem_nil, ?_⟩
      intro d hd
      cases hd
  | ok resourceMeta =>
      obtain ⟨candidates, hcandidates, hfetched⟩ := hmeta resourceMeta rfl
      obtain ⟨third, fourth, server, rfl, hthird, hfourth⟩ := performs_bind.mp hsecond
      obtain ⟨hgets', hserver⟩ := performs_discoverAuthorizationServer hthird
      cases server with
      | error e =>
          obtain ⟨rfl, rfl⟩ := performs_ret.mp hfourth
          rw [List.append_nil]
          refine ⟨hgets.append hgets', ?_⟩
          intro d hd
          cases hd
      | ok server =>
          obtain ⟨rfl, rfl⟩ := performs_ret.mp hfourth
          rw [List.append_nil]
          refine ⟨hgets.append hgets', ?_⟩
          intro d hd
          cases hd
          obtain ⟨candidates', hcandidates', hfetched', hissuer, hpkce⟩ := hserver server rfl
          obtain ⟨issuer, rest, hservers⟩ := List.exists_cons_of_ne_nil resourceMeta.2
          have hhead : resourceMeta.1.authorizationServers.head resourceMeta.2 = issuer := by
            simp [hservers]
          rw [hhead] at hcandidates' hissuer
          exact ⟨issuer, rest, candidates, candidates', hservers, hcandidates,
            hfetched.mono fun x hx => List.mem_append_left _ hx, hcandidates',
            hfetched'.mono fun x hx => List.mem_append_right _ hx, hissuer, hpkce⟩

/-! ### Two runs -/

/-- What `Url::parse` makes of two URLs. -/
def sampleUrls (s : String) : Except String ParsedUrl :=
  if s = "https://mcp.example.com/mcp" then
    .ok { scheme := "https", host := some "mcp.example.com", port := none, path := "/mcp" }
  else if s = "https://as.example.com" then
    .ok { scheme := "https", host := some "as.example.com", port := none, path := "/" }
  else .error "relative URL without a base"

def resourceDocument (resource : String) : Value :=
  .object [("resource", .string resource),
    ("authorization_servers", .array [.string "https://as.example.com"])]

def serverDocument (issuer method : String) : Value :=
  .object [("issuer", .string issuer),
    ("authorization_endpoint", .string "https://as.example.com/authorize"),
    ("token_endpoint", .string "https://as.example.com/token"),
    ("code_challenge_methods_supported", .array [.string method])]

/-- Both documents are at the first place they are looked for. -/
def servedTrace (resource issuer method : String) : OAuthTrace :=
  [⟨.get "https://mcp.example.com/.well-known/oauth-protected-resource/mcp",
      .ok ⟨200, .ok (resourceDocument resource)⟩⟩,
    ⟨.get "https://as.example.com/.well-known/oauth-authorization-server",
      .ok ⟨200, .ok (serverDocument issuer method)⟩⟩]

def servedResult (resource issuer method : String) : Discovered where
  resource :=
    { resource, authorizationServers := ["https://as.example.com"], scopesSupported := none }
  server :=
    { issuer
      authorizationEndpoint := "https://as.example.com/authorize"
      tokenEndpoint := "https://as.example.com/token"
      registrationEndpoint := none
      codeChallengeMethodsSupported := some [method]
      clientIdMetadataDocumentSupported := none
      authorizationResponseIssParameterSupported := none
      scopesSupported := none }

def sampleDiscovery : OAuthProgram (Except OAuthClientError Discovered) :=
  discover sampleUrls (fun _ => "") (fun _ => "") "https://mcp.example.com/mcp" none

/-- Documents as they should be pass the checks. -/
theorem honest_documents_checked :
    OnlyGets (servedTrace "https://mcp.example.com/mcp" "https://as.example.com" "S256") ∧
      (servedResult "https://mcp.example.com/mcp" "https://as.example.com"
        "S256").server.hasPkce = true := by
  have hrun : Performs sampleDiscovery
      (servedTrace "https://mcp.example.com/mcp" "https://as.example.com" "S256")
      (.ok (servedResult "https://mcp.example.com/mcp" "https://as.example.com" "S256")) :=
    .call (.call (.ret _))
  obtain ⟨hgets, hchecks⟩ := discover_checks _ _ _ _ _ _ _ hrun
  obtain ⟨issuer, rest, candidates, candidates', -, -, -, -, -, -, hpkce⟩ := hchecks _ rfl
  exact ⟨hgets, hpkce⟩

/-- So do the metadata of another resource, from a server with another issuer, that
supports no S256. -/
theorem lax_documents_accepted :
    let d := servedResult "https://other.example.com/mcp" "https://as.example.com/" "plain"
    Performs sampleDiscovery
        (servedTrace "https://other.example.com/mcp" "https://as.example.com/" "plain") (.ok d) ∧
      d.resource.resource ≠ "https://mcp.example.com/mcp" ∧
      d.server.issuer ∉ d.resource.authorizationServers ∧
      ∀ methods, d.server.codeChallengeMethodsSupported = some methods → "S256" ∉ methods := by
  refine ⟨.call (.call (.ret _)), ?_, ?_, ?_⟩
  · decide
  · decide
  · intro methods hmethods
    obtain rfl := Option.some.inj hmethods
    decide

end

end TurboMcp.Auth
