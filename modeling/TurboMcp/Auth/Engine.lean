import TurboMcp.Auth.Flow
import TurboMcp.Lib.Logged

/-!
# The OAuth engine and its store

An engine discovers a server, takes the credentials stored under its issuer or
registers for them, and obtains and renews tokens, which it stores under issuer and
resource.  Any number of engines may share one store, and any number of sessions run
on them at once; what the network and the browser answer is open.
-/

namespace TurboMcp.Auth

open TurboMcp.Core TurboMcp.Lib

/-! ## Registration -/

/-- Credentials without a secret. -/
def ClientCredentials.publicClient (clientId : String) : ClientCredentials := ⟨clientId, none⟩

inductive ApplicationType
  | native
  | web
  deriving DecidableEq

/-- The registration request. -/
structure DynamicRegistration where
  clientName : String
  redirectUris : List String
  applicationType : ApplicationType
  grantTypes : List String
  responseTypes : List String
  tokenEndpointAuthMethod : String
  deriving DecidableEq

namespace DynamicRegistration

def native (clientName : String) (redirectUris : List String) : DynamicRegistration where
  clientName
  redirectUris
  applicationType := .native
  grantTypes := ["authorization_code", "refresh_token"]
  responseTypes := ["code"]
  tokenEndpointAuthMethod := "none"

def web (clientName : String) (redirectUris : List String) : DynamicRegistration :=
  { native clientName redirectUris with applicationType := .web }

end DynamicRegistration

/-- How an engine comes by its credentials at a server. -/
inductive RegistrationStrategy
  | preregistered (credentials : ClientCredentials) (issuer : Option String)
  | metadataDocument (clientIdUrl : String)
  | dynamic (request : DynamicRegistration)
  deriving DecidableEq

/-- The answer of a registration endpoint, as text and as JSON. -/
structure RegistrationReply where
  status : Nat
  text : Except String String
  json : Except String Value

/-- `RegistrationResponse`. -/
def decodeRegistration (v : Value) : Option ClientCredentials := do
  let m ← structFields ["client_id", "client_secret"] v
  let clientId ← stringField m "client_id"
  let clientSecret ← optionField m "client_secret" Value.asStr
  pure { clientId, clientSecret }

/-! ## Effects -/

/-- The redemption of a refresh token, and where it is sent. -/
structure RefreshExchange where
  tokenEndpoint : String
  clientId : String
  clientSecret : Option String
  refreshToken : String
  resource : String
  deriving DecidableEq

/-- What an engine asks of its surroundings.  The two halves of `clear` are under two
locks. -/
inductive EngineEffect
  | base (e : OAuthEffect)
  | register (endpoint : String) (request : DynamicRegistration)
  | redeem (request : RefreshExchange)
  | loadClient (issuer : String)
  | storeClient (issuer : String) (credentials : ClientCredentials)
  | loadTokens (issuer resource : String)
  | removeClient (issuer : String)
  | removeTokens (issuer : String)
  | newRandom
  | redirect (authorizeUrl : String)
  deriving DecidableEq

/-- `newRandom` draws a state and a verifier; `redirect` is the user's way through the
browser, back to the redirect URL. -/
abbrev EngineEffect.Reply : EngineEffect → Type
  | base e => e.Reply
  | register _ _ => Except String RegistrationReply
  | redeem _ => Except String TokenResponse
  | loadClient _ => Option ClientCredentials
  | storeClient _ _ => Unit
  | loadTokens _ _ => Option TokenSet
  | removeClient _ => Unit
  | removeTokens _ => Unit
  | newRandom => String × String
  | redirect _ => String

abbrev EngineProgram := Program EngineEffect EngineEffect.Reply

namespace EngineProgram

def ask (e : EngineEffect) : EngineProgram e.Reply := Program.perform e

/-- A program of the bare client. -/
def ofBase {α : Type} (p : OAuthProgram α) : EngineProgram α :=
  Program.lift EngineEffect.base p

end EngineProgram

/-! ## The engine -/

/-- `CallbackParams::from_query`; a later parameter replaces an earlier one. -/
def CallbackParams.fromQuery (parseForm : String → List (String × String))
    (queryOrUrl : String) : CallbackParams :=
  (parseForm (afterQuestion queryOrUrl)).foldl set ⟨none, none, none, none, none⟩
where
  afterQuestion (s : String) : String :=
    match s.toList.dropWhile (· ≠ '?') with
    | [] => s
    | _ :: query => String.ofList query
  set (out : CallbackParams) (param : String × String) : CallbackParams :=
    if param.1 = "code" then { out with code := some param.2 }
    else if param.1 = "state" then { out with state := some param.2 }
    else if param.1 = "iss" then { out with iss := some param.2 }
    else if param.1 = "error" then { out with error := some param.2 }
    else if param.1 = "error_description" then { out with errorDescription := some param.2 }
    else out

/-- What URL, status, form and document libraries make of their inputs. -/
structure OAuthLibraries where
  parseUrl : String → Except String ParsedUrl
  checkUrl : String → Except String Unit
  statusText : Nat → String
  serdeText : Value → String
  authorizeUrl : AuthorizeRequest → String
  parseForm : String → List (String × String)

/-- The client with its registration; the store is its surroundings'. -/
structure OAuthEngine extends OAuthClient where
  strategy : RegistrationStrategy

open EngineProgram

/-- What the registration endpoint's answer comes to. -/
def registered (x : OAuthLibraries) :
    Except String RegistrationReply → Except OAuthClientError ClientCredentials
  | .error e => .error (.registration e)
  | .ok resp =>
      if ¬ (200 ≤ resp.status ∧ resp.status < 300) then
        .error (.registration ("dynamic registration rejected (HTTP " ++ x.statusText resp.status ++
          "): " ++ resp.text.toOption.getD ""))
      else
        match resp.json with
        | .error e => .error (.registration ("invalid response: " ++ e))
        | .ok v =>
            match decodeRegistration v with
            | none => .error (.registration ("invalid response: " ++ x.serdeText v))
            | some credentials => .ok credentials

/-- The issuer preregistered credentials are for, if it is known and another one. -/
def issuerConflict (expected : Option String) (server : AuthorizationServerMetadata) :
    Option String :=
  expected.filter fun expected => trimSlashes expected ≠ trimSlashes server.issuer

/-- `obtain_credentials`. -/
def obtainCredentials (x : OAuthLibraries) (server : AuthorizationServerMetadata) :
    RegistrationStrategy → EngineProgram (Except OAuthClientError ClientCredentials)
  | .preregistered credentials issuer =>
      match issuerConflict issuer server with
      | some expected => pure (.error (.issuerChanged expected server.issuer))
      | none => pure (.ok credentials)
  | .metadataDocument clientIdUrl =>
      if server.clientIdMetadataDocumentSupported ≠ some true then
        pure (.error (.registration ("authorization server " ++ server.issuer ++
          " does not advertise client_id_metadata_document_supported")))
      else pure (.ok (.publicClient clientIdUrl))
  | .dynamic request =>
      match server.registrationEndpoint with
      | none =>
          pure (.error (.registration ("authorization server " ++ server.issuer ++
            " advertises no registration_endpoint")))
      | some endpoint => do
          let reply ← ask (.register endpoint request)
          pure (registered x reply)

namespace OAuthEngine

/-- `OAuthClient::discover`. -/
def discover (x : OAuthLibraries) (engine : OAuthEngine) (challenge : Option BearerChallenge) :
    EngineProgram (Except OAuthClientError Discovered) :=
  ofBase (Auth.discover x.parseUrl x.statusText x.serdeText engine.resource challenge)

/-- `OAuthClient::credentials`. -/
def credentials (x : OAuthLibraries) (engine : OAuthEngine) (discovered : Discovered) :
    EngineProgram (Except OAuthClientError ClientCredentials) := do
  let stored ← ask (.loadClient discovered.server.issuer)
  match stored with
  | some stored => pure (.ok stored)
  | none => do
      let obtained ← obtainCredentials x discovered.server engine.strategy
      match obtained with
      | .error e => pure (.error e)
      | .ok credentials => do
          ask (.storeClient discovered.server.issuer credentials)
          pure (.ok credentials)

/-- `OAuthClient::select_scopes`. -/
def selectScopes (challenge : Option BearerChallenge) (discovered : Discovered) : List String :=
  let challenged := (challenge.map BearerChallenge.scopes).getD []
  if challenged ≠ [] then challenged else discovered.resource.scopesSupported.getD []

/-- `OAuthClient::step_up_scopes`: each scope where it is first named. -/
def stepUpScopes (previous challenged : List String) : List String :=
  (previous ++ challenged).foldl (fun out scope => if scope ∈ out then out else out ++ [scope]) []

/-- The token set after a refresh; the old refresh token stays where none is sent. -/
def rotate (tokens : TokenSet) (token : TokenResponse) (now : Nat) : TokenSet :=
  let rotated := toTokenSet token tokens.scopes now
  { rotated with refreshToken := rotated.refreshToken.orElse fun _ => tokens.refreshToken }

/-- `OAuthClient::refresh`. -/
def refresh (x : OAuthLibraries) (engine : OAuthEngine) (discovered : Discovered)
    (credentials : ClientCredentials) (tokens : TokenSet) :
    EngineProgram (Except OAuthClientError TokenSet) :=
  match tokens.refreshToken with
  | none => pure (.error (.tokenExchange "no refresh token; re-authorization required"))
  | some refreshToken =>
      match buildOauth2Client x.checkUrl discovered engine.redirectUri with
      | .error e => pure (.error e)
      | .ok () => do
          let token ← ask (.redeem
            { tokenEndpoint := discovered.server.tokenEndpoint
              clientId := credentials.clientId
              clientSecret := credentials.clientSecret
              refreshToken
              resource := engine.resource })
          match token with
          | .error e => pure (.error (.tokenExchange e))
          | .ok token => do
              let now ← ask (.base .now)
              let rotated := rotate tokens token now
              ask (.base (.storeTokens discovered.server.issuer engine.resource rotated))
              pure (.ok rotated)

/-- `OAuthClient::stored_tokens`. -/
def storedTokens (engine : OAuthEngine) (discovered : Discovered) :
    EngineProgram (Option TokenSet) :=
  ask (.loadTokens discovered.server.issuer engine.resource)

/-! ## Sessions -/

/-- `begin`, the user's way through the browser, and `complete`. -/
def authorize (x : OAuthLibraries) (engine : OAuthEngine) (discovered : Discovered)
    (credentials : ClientCredentials) (scopes : List String) :
    EngineProgram (Except OAuthClientError TokenSet) := do
  let drawn ← ask .newRandom
  match engine.begin x.checkUrl x.authorizeUrl discovered credentials scopes drawn.1 drawn.2 with
  | .error e => pure (.error e)
  | .ok pending => do
      let url ← ask (.redirect pending.authorizeUrl)
      ofBase (engine.complete x.checkUrl discovered credentials pending
        (.fromQuery x.parseForm url))

/-- What an application does with what it has discovered, on the tokens it holds. -/
inductive SessionStep
  | authorize
  | stepUp (challenged : List String)
  | renewHeld
  | renewStored

/-- One step, and the tokens then held. -/
def step (x : OAuthLibraries) (engine : OAuthEngine) (challenge : Option BearerChallenge)
    (discovered : Discovered) (credentials : ClientCredentials) (held : Option TokenSet) :
    SessionStep → EngineProgram (Except OAuthClientError (Option TokenSet))
  | .authorize => do
      let tokens ← engine.authorize x discovered credentials (selectScopes challenge discovered)
      pure (tokens.map some)
  | .stepUp challenged => do
      let previous := (held.map TokenSet.scopes).getD []
      let tokens ← engine.authorize x discovered credentials (stepUpScopes previous challenged)
      pure (tokens.map some)
  | .renewHeld =>
      match held with
      | none => pure (.ok none)
      | some tokens => do
          let tokens ← engine.refresh x discovered credentials tokens
          pure (tokens.map some)
  | .renewStored => do
      let stored ← engine.storedTokens discovered
      match stored with
      | none => pure (.ok held)
      | some tokens => do
          let tokens ← engine.refresh x discovered credentials tokens
          pure (tokens.map some)

/-- A failed step leaves the tokens held as they are. -/
def steps (x : OAuthLibraries) (engine : OAuthEngine) (challenge : Option BearerChallenge)
    (discovered : Discovered) (credentials : ClientCredentials) :
    List SessionStep → Option TokenSet → EngineProgram Unit
  | [], _ => pure ()
  | s :: rest, held => do
      let result ← engine.step x challenge discovered credentials held s
      match result with
      | .ok held => engine.steps x challenge discovered credentials rest held
      | .error _ => engine.steps x challenge discovered credentials rest held

/-- Discovery, credentials, and then some steps with both. -/
def session (x : OAuthLibraries) (engine : OAuthEngine) (challenge : Option BearerChallenge)
    (todo : List SessionStep) : EngineProgram Unit := do
  let found ← engine.discover x challenge
  match found with
  | .error _ => pure ()
  | .ok discovered => do
      let obtained ← engine.credentials x discovered
      match obtained with
      | .error _ => pure ()
      | .ok credentials => engine.steps x challenge discovered credentials todo none

end OAuthEngine

/-! ## The store -/

/-- `MemoryCredentialStore`. -/
structure MemoryCredentialStore where
  clients : Dict String ClientCredentials
  tokens : Dict (String × String) TokenSet

namespace MemoryCredentialStore

def new : MemoryCredentialStore := ⟨Dict.empty, Dict.empty⟩

def loadClient (store : MemoryCredentialStore) (issuer : String) : Option ClientCredentials :=
  store.clients.get issuer

def storeClient (store : MemoryCredentialStore) (issuer : String)
    (credentials : ClientCredentials) : MemoryCredentialStore :=
  { store with clients := store.clients.insert issuer credentials }

def loadTokens (store : MemoryCredentialStore) (issuer resource : String) : Option TokenSet :=
  store.tokens.get (issuer, resource)

def storeTokens (store : MemoryCredentialStore) (issuer resource : String) (tokens : TokenSet) :
    MemoryCredentialStore :=
  { store with tokens := store.tokens.insert (issuer, resource) tokens }

def removeClient (store : MemoryCredentialStore) (issuer : String) : MemoryCredentialStore :=
  { store with clients := store.clients.remove issuer }

def removeTokens (store : MemoryCredentialStore) (issuer : String) : MemoryCredentialStore :=
  { store with tokens := store.tokens.retain fun key _ => key.1 ≠ issuer }

end MemoryCredentialStore

/-- What runs on a store. -/
inductive EngineTask
  | session (engine : OAuthEngine) (challenge : Option BearerChallenge)
      (todo : List OAuthEngine.SessionStep)
  | clear (issuer : String)

/-- `CredentialStore::clear`. -/
def clearIssuer (issuer : String) : EngineProgram Unit := do
  ask (.removeClient issuer)
  ask (.removeTokens issuer)

def EngineTask.program (x : OAuthLibraries) : EngineTask → EngineProgram Unit
  | session engine challenge todo => engine.session x challenge todo
  | clear issuer => clearIssuer issuer

/-- The store answers for itself; the rest is as chosen. -/
def storeAnswers (chosen : (e : EngineEffect) → e.Reply) (store : MemoryCredentialStore) :
    (e : EngineEffect) → e.Reply × MemoryCredentialStore
  | .loadClient issuer => (store.loadClient issuer, store)
  | .storeClient issuer credentials => ((), store.storeClient issuer credentials)
  | .loadTokens issuer resource => (store.loadTokens issuer resource, store)
  | .base (.storeTokens issuer resource tokens) => ((), store.storeTokens issuer resource tokens)
  | .removeClient issuer => ((), store.removeClient issuer)
  | .removeTokens issuer => ((), store.removeTokens issuer)
  | e => (chosen e, store)

def engines (x : OAuthLibraries) :
    Machine MemoryCredentialStore EngineEffect EngineEffect.Reply EngineTask
      ((e : EngineEffect) → e.Reply) where
  start := EngineTask.program x
  exec _ chosen store e :=
    .answer (storeAnswers chosen store e).1 (storeAnswers chosen store e).2

end TurboMcp.Auth
