import TurboMcp.Auth.Discovery

/-!
# The authorization code flow

`begin` records what the callback will be held against; `complete` makes the
checks, in a fixed order, and exchanges the code.  The server it sends the code
to is the one of the `Discovered` it is given, which it does not hold against
the record.
-/

namespace TurboMcp.Auth

open TurboMcp.Core TurboMcp.Lib

structure ClientCredentials where
  clientId : String
  clientSecret : Option String
  deriving DecidableEq

/-- The record kept between opening the browser and receiving the callback. -/
structure PendingAuthorization where
  authorizeUrl : String
  state : String
  pkceVerifier : String
  expectedIssuer : String
  issAdvertised : Bool
  scopes : List String
  deriving DecidableEq

/-- The parameters of the authorization response. -/
structure CallbackParams where
  code : Option String
  state : Option String
  iss : Option String
  error : Option String
  errorDescription : Option String
  deriving DecidableEq

/-- The client, without its HTTP client, registration and store. -/
structure OAuthClient where
  resource : String
  redirectUri : String

/-- Constant-time equality of byte slices. -/
def ctEq (a b : List UInt8) : Bool :=
  if a.length ≠ b.length then false
  else ((a.zip b).foldl (fun diff x => diff ||| (x.1 ^^^ x.2)) 0) = 0

/-! ## The two steps -/

section

-- whether a URL parses
variable (checkUrl : String → Except String Unit)

/-- The endpoints and the redirect of the assembled `oauth2` client have to parse. -/
def buildOauth2Client (discovered : Discovered) (redirectUri : String) :
    Except OAuthClientError Unit :=
  match checkUrl discovered.server.authorizationEndpoint with
  | .error e => .error (.discovery ("authorization_endpoint: " ++ e))
  | .ok () =>
      match checkUrl discovered.server.tokenEndpoint with
      | .error e => .error (.discovery ("token_endpoint: " ++ e))
      | .ok () =>
          match checkUrl redirectUri with
          | .error e => .error (.discovery ("redirect_uri: " ++ e))
          | .ok () => .ok ()

/-- What the authorization URL is made of. -/
structure AuthorizeRequest where
  authorizationEndpoint : String
  clientId : String
  redirectUri : String
  state : String
  pkceVerifier : String
  resource : String
  scopes : List String

/-- The server announces `iss` in its responses. -/
def Discovered.announcesIss (discovered : Discovered) : Bool :=
  discovered.server.authorizationResponseIssParameterSupported = some true

namespace OAuthClient

/-- `OAuthClient::begin`, on a fresh `state` and PKCE verifier. -/
def begin (authorizeUrl : AuthorizeRequest → String) (client : OAuthClient)
    (discovered : Discovered) (credentials : ClientCredentials) (scopes : List String)
    (state pkceVerifier : String) : Except OAuthClientError PendingAuthorization :=
  match buildOauth2Client checkUrl discovered client.redirectUri with
  | .error e => .error e
  | .ok () =>
      .ok
        { authorizeUrl := authorizeUrl
            { authorizationEndpoint := discovered.server.authorizationEndpoint
              clientId := credentials.clientId
              redirectUri := client.redirectUri
              state, pkceVerifier, resource := client.resource, scopes }
          state
          pkceVerifier
          expectedIssuer := discovered.server.issuer
          issAdvertised := discovered.announcesIss
          scopes }

end OAuthClient

/-- The checks of `complete` before the exchange: the code, or why there is none. -/
def checkCallback (pending : PendingAuthorization) (callback : CallbackParams) :
    Except OAuthClientError String :=
  if !callback.state.any fun s => ctEq s.toUTF8.data.toList pending.state.toUTF8.data.toList then
    .error (.authorization "authorization response state mismatch; response discarded")
  else
    match callback.iss, pending.issAdvertised with
    | some iss, _ =>
        if iss ≠ pending.expectedIssuer then .error (.issuerMismatch pending.expectedIssuer iss)
        else codeOf callback
    | none, true =>
        .error (.authorization
          "authorization server advertises iss identification but the response omitted it")
    | none, false => codeOf callback
where
  codeOf (callback : CallbackParams) : Except OAuthClientError String :=
    match callback.error with
    | some error =>
        .error (.authorization ("authorization failed: " ++ error ++
          ((callback.errorDescription.map fun d => " (" ++ d ++ ")").getD "")))
    | none =>
        match callback.code with
        | none => .error (.authorization "authorization response carried no code")
        | some code => .ok code

/-- The clock is read where the answer says how long the token lasts. -/
def toTokenSet (token : TokenResponse) (requestedScopes : List String) (now : Nat) : TokenSet where
  accessToken := token.accessToken
  refreshToken := token.refreshToken
  expiresAtEpochSecs := token.expiresIn.map (now + ·)
  scopes := token.scopes.getD requestedScopes

namespace OAuthClient

/-- `OAuthClient::complete`. -/
def complete (client : OAuthClient) (discovered : Discovered) (credentials : ClientCredentials)
    (pending : PendingAuthorization) (callback : CallbackParams) :
    OAuthProgram (Except OAuthClientError TokenSet) :=
  match checkCallback pending callback with
  | .error e => pure (.error e)
  | .ok code =>
      match buildOauth2Client checkUrl discovered client.redirectUri with
      | .error e => pure (.error e)
      | .ok () => do
          let token ← Program.perform (OAuthEffect.exchange
            { tokenEndpoint := discovered.server.tokenEndpoint
              clientId := credentials.clientId
              clientSecret := credentials.clientSecret
              redirectUri := client.redirectUri
              code
              pkceVerifier := pending.pkceVerifier
              resource := client.resource })
          match token with
          | .error e => pure (.error (.tokenExchange e))
          | .ok token => do
              let now ← Program.perform OAuthEffect.now
              let tokens := toTokenSet token pending.scopes now
              Program.perform
                (OAuthEffect.storeTokens discovered.server.issuer client.resource tokens)
              pure (.ok tokens)

end OAuthClient

end

/-! ## The comparison -/

theorem foldl_or_eq_zero (xs : List (UInt8 × UInt8)) (diff : UInt8) :
    xs.foldl (fun diff x => diff ||| (x.1 ^^^ x.2)) diff = 0 ↔
      diff = 0 ∧ ∀ x ∈ xs, x.1 = x.2 := by
  induction xs generalizing diff with
  | nil => simp
  | cons x xs ih =>
      rw [List.foldl_cons, ih, UInt8.or_eq_zero_iff, UInt8.xor_eq_zero_iff, List.forall_mem_cons,
        and_assoc]

theorem ctEq_iff {a b : List UInt8} : ctEq a b = true ↔ a = b := by
  unfold ctEq
  split
  · rename_i hlength
    refine iff_of_false Bool.false_ne_true ?_
    rintro rfl
    exact hlength rfl
  · rename_i hlength
    rw [not_ne_iff] at hlength
    rw [decide_eq_true_eq, foldl_or_eq_zero]
    constructor
    · rintro ⟨-, hzip⟩
      apply List.ext_getElem hlength
      intro n ha hb
      exact hzip (a[n], b[n]) (by
        rw [← List.getElem_zip (h := by simp; omega)]
        exact List.getElem_mem _)
    · rintro rfl
      refine ⟨rfl, ?_⟩
      intro x hx
      obtain ⟨n, hn, rfl⟩ := List.getElem_of_mem hx
      rw [List.getElem_zip]

theorem state_ctEq_iff {s t : String} :
    ctEq s.toUTF8.data.toList t.toUTF8.data.toList = true ↔ s = t := by
  rw [ctEq_iff]
  constructor
  · intro h
    have hdata : s.toUTF8.data = t.toUTF8.data := Array.toList_inj.mp h
    exact String.toByteArray_inj.mp (ByteArray.ext hdata)
  · rintro rfl
    rfl

/-! ## What the checks let through -/

/-- The table for `iss`: it names the issuer, or is missing where it was not
announced. -/
def IssAccepted (issuer : String) (advertised : Bool) (callback : CallbackParams) : Prop :=
  match callback.iss with
  | some iss => iss = issuer
  | none => advertised = false

/-- The response has the state, comes from the issuer, and is no error. -/
structure Accepted (state issuer : String) (advertised : Bool) (callback : CallbackParams) : Prop where
  state : callback.state = some state
  iss : IssAccepted issuer advertised callback
  error : callback.error = none

/-- It is the response to a pending authorization. -/
abbrev PendingAuthorization.Accepts (pending : PendingAuthorization) (callback : CallbackParams) :
    Prop :=
  Accepted pending.state pending.expectedIssuer pending.issAdvertised callback

theorem codeOf_eq_ok_iff {callback : CallbackParams} {code : String} :
    checkCallback.codeOf callback = .ok code ↔
      callback.error = none ∧ callback.code = some code := by
  unfold checkCallback.codeOf
  cases callback.error with
  | some error => simp
  | none =>
      cases callback.code with
      | none => simp
      | some c => simp

theorem checkCallback_eq_ok_iff {pending : PendingAuthorization} {callback : CallbackParams}
    {code : String} :
    checkCallback pending callback = .ok code ↔
      pending.Accepts callback ∧ callback.code = some code := by
  have hstate : (callback.state.any fun s =>
      ctEq s.toUTF8.data.toList pending.state.toUTF8.data.toList) = true ↔
        callback.state = some pending.state := by
    cases callback.state with
    | none => simp
    | some s => rw [Option.any_some, state_ctEq_iff, Option.some.injEq]
  have haccepted : pending.Accepts callback ∧ callback.code = some code ↔
      callback.state = some pending.state ∧
        IssAccepted pending.expectedIssuer pending.issAdvertised callback ∧
        checkCallback.codeOf callback = .ok code := by
    rw [codeOf_eq_ok_iff]
    constructor
    · rintro ⟨⟨h₁, h₂, h₃⟩, h₄⟩
      exact ⟨h₁, h₂, h₃, h₄⟩
    · rintro ⟨h₁, h₂, h₃, h₄⟩
      exact ⟨⟨h₁, h₂, h₃⟩, h₄⟩
  rw [haccepted]
  unfold checkCallback IssAccepted
  cases hany : callback.state.any fun s =>
      ctEq s.toUTF8.data.toList pending.state.toUTF8.data.toList with
  | false =>
      have hno : callback.state ≠ some pending.state := fun h => by
        rw [hstate.mpr h] at hany
        cases hany
      simp [hno]
  | true =>
      simp only [Bool.not_true, Bool.false_eq_true, if_false, hstate.mp hany, true_and]
      cases callback.iss with
      | some iss =>
          by_cases hiss : iss = pending.expectedIssuer
          · simp [hiss]
          · simp [hiss]
      | none =>
          cases pending.issAdvertised with
          | false => simp
          | true => simp

/-! ## Where the code goes -/

section

open Lib.Program

variable {checkUrl : String → Except String Unit}

/-- The code is sent only on a response that has the state and comes from the issuer
recorded, and to a server with that issuer; tokens are stored under that issuer. -/
structure CodeBound (recorded : Discovered) (state : String) (callback : CallbackParams)
    (discovered : Discovered) (tr : OAuthTrace) : Prop where
  sent : ∀ x ∈ tr, ∀ request, x.1 = .exchange request →
    Accepted state recorded.server.issuer recorded.announcesIss callback ∧
      discovered.server.issuer = recorded.server.issuer
  stored : ∀ x ∈ tr, ∀ issuer resource tokens, x.1 = .storeTokens issuer resource tokens →
    issuer = recorded.server.issuer

/-- The code is sent. -/
structure Exchanges (checkUrl : String → Except String Unit) (client : OAuthClient)
    (pending : PendingAuthorization) (callback : CallbackParams) (discovered : Discovered) :
    Prop where
  accepted : pending.Accepts callback
  code : callback.code.isSome = true
  urls : buildOauth2Client checkUrl discovered client.redirectUri = .ok ()

/-- What `begin` records. -/
theorem accepts_of_begin {authorizeUrl : AuthorizeRequest → String} {client : OAuthClient}
    {recorded : Discovered} {credentials : ClientCredentials} {scopes : List String}
    {state pkceVerifier : String} {pending : PendingAuthorization}
    (h : client.begin checkUrl authorizeUrl recorded credentials scopes state pkceVerifier =
      .ok pending) (callback : CallbackParams) :
    pending.Accepts callback ↔
      Accepted state recorded.server.issuer recorded.announcesIss callback := by
  unfold OAuthClient.begin at h
  split at h
  · cases h
  · cases h
    rfl

/-- Nothing is sent or stored but on an accepted response, and then under the issuer
of what `complete` was given. -/
theorem performs_complete {client : OAuthClient} {discovered : Discovered}
    {credentials : ClientCredentials} {pending : PendingAuthorization} {callback : CallbackParams}
    {tr : OAuthTrace} {result : Except OAuthClientError TokenSet}
    (h : Performs (client.complete checkUrl discovered credentials pending callback) tr result) :
    tr = [] ∨ Exchanges checkUrl client pending callback discovered ∧
      ∀ x ∈ tr, ∀ issuer resource tokens, x.1 = .storeTokens issuer resource tokens →
        issuer = discovered.server.issuer := by
  unfold OAuthClient.complete at h
  split at h
  · exact .inl (performs_ret.mp h).1
  · rename_i code hcode
    obtain ⟨haccepted, hsome⟩ := checkCallback_eq_ok_iff.mp hcode
    split at h
    · exact .inl (performs_ret.mp h).1
    · rename_i hurls
      refine .inr ⟨⟨haccepted, Option.isSome_iff_exists.mpr ⟨code, hsome⟩, hurls⟩, ?_⟩
      obtain ⟨token, tr', rfl, hrest⟩ := performs_call.mp h
      cases token with
      | error e =>
          obtain ⟨rfl, -⟩ := performs_ret.mp hrest
          intro x hx issuer resource tokens heq
          obtain rfl := List.mem_singleton.mp hx
          cases heq
      | ok token =>
          obtain ⟨now, trNow, rfl, hnow⟩ := performs_call.mp hrest
          obtain ⟨u, trStore, rfl, hstore⟩ := performs_call.mp hnow
          obtain ⟨rfl, -⟩ := performs_ret.mp hstore
          intro x hx issuer resource tokens heq
          simp only [List.mem_cons, List.not_mem_nil, or_false] at hx
          rcases hx with rfl | rfl | rfl
          · cases heq
          · cases heq
          · cases heq
            rfl

/-- An exchange that is rejected. -/
theorem exists_exchange {client : OAuthClient} {discovered : Discovered}
    (credentials : ClientCredentials) {pending : PendingAuthorization} {callback : CallbackParams}
    (h : Exchanges checkUrl client pending callback discovered) :
    ∃ tr result,
      Performs (client.complete checkUrl discovered credentials pending callback) tr result ∧
        ∃ x ∈ tr, ∃ request, x.1 = .exchange request := by
  obtain ⟨code, hcode⟩ := Option.isSome_iff_exists.mp h.code
  have hcheck := checkCallback_eq_ok_iff.mpr ⟨h.accepted, hcode⟩
  let request : CodeExchange :=
    { tokenEndpoint := discovered.server.tokenEndpoint
      clientId := credentials.clientId
      clientSecret := credentials.clientSecret
      redirectUri := client.redirectUri
      code
      pkceVerifier := pending.pkceVerifier
      resource := client.resource }
  refine ⟨[⟨.exchange request, .error "rejected"⟩], .error (.tokenExchange "rejected"), ?_,
    ⟨.exchange request, .error "rejected"⟩, List.mem_cons_self, request, rfl⟩
  unfold OAuthClient.complete
  rw [hcheck, h.urls]
  exact .call (.ret _)

/-- **Where the code goes**: whatever the token endpoint and the store answer, the
code and the tokens are bound to the recorded issuer if and only if `complete` is
given a server with that issuer, or sends nothing. -/
theorem code_bound_iff (checkUrl : String → Except String Unit)
    (authorizeUrl : AuthorizeRequest → String) (client : OAuthClient) (recorded : Discovered)
    (credentials : ClientCredentials) (scopes : List String) (state pkceVerifier : String)
    (pending : PendingAuthorization)
    (hbegin : client.begin checkUrl authorizeUrl recorded credentials scopes state pkceVerifier =
      .ok pending)
    (discovered : Discovered) (credentials' : ClientCredentials) (callback : CallbackParams) :
    (∀ tr result,
      Performs (client.complete checkUrl discovered credentials' pending callback) tr result →
        CodeBound recorded state callback discovered tr) ↔
      discovered.server.issuer = recorded.server.issuer ∨
        ¬ Exchanges checkUrl client pending callback discovered := by
  constructor
  · intro hbound
    by_cases hexchanges : Exchanges checkUrl client pending callback discovered
    · left
      obtain ⟨tr, result, hrun, x, hx, request, heq⟩ := exists_exchange credentials' hexchanges
      exact ((hbound tr result hrun).sent x hx request heq).2
    · exact .inr hexchanges
  · intro hcond tr result h
    rcases performs_complete h with rfl | ⟨hexchanges, hstored⟩
    · refine ⟨?_, ?_⟩
      · intro x hx
        cases hx
      · intro x hx
        cases hx
    · have hissuer := hcond.resolve_right (not_not_intro hexchanges)
      refine ⟨?_, ?_⟩
      · intro x hx request heq
        exact ⟨(accepts_of_begin hbegin callback).mp hexchanges.accepted, hissuer⟩
      · intro x hx issuer resource tokens heq
        rw [hstored x hx issuer resource tokens heq, hissuer]

/-! ### Two completions -/

def sampleClient : OAuthClient where
  resource := "https://mcp.example.com/mcp"
  redirectUri := "http://127.0.0.1:7777/callback"

def sampleServer (issuer tokenEndpoint : String) : Discovered where
  resource :=
    { resource := "https://mcp.example.com/mcp"
      authorizationServers := [issuer]
      scopesSupported := none }
  server :=
    { issuer
      authorizationEndpoint := "https://as.example.com/authorize"
      tokenEndpoint
      registrationEndpoint := none
      codeChallengeMethodsSupported := some ["S256"]
      clientIdMetadataDocumentSupported := none
      authorizationResponseIssParameterSupported := none
      scopesSupported := none }

def honestServer : Discovered :=
  sampleServer "https://as.example.com" "https://as.example.com/token"

def attackingServer : Discovered :=
  sampleServer "https://attacker.example" "https://attacker.example/token"

def samplePending : PendingAuthorization where
  authorizeUrl := ""
  state := "xyz"
  pkceVerifier := "verifier"
  expectedIssuer := "https://as.example.com"
  issAdvertised := false
  scopes := []

def sampleCallback : CallbackParams where
  code := some "abc"
  state := some "xyz"
  iss := some "https://as.example.com"
  error := none
  errorDescription := none

/-- Completed at the given server. -/
def sampleCompletion (discovered : Discovered) : OAuthProgram (Except OAuthClientError TokenSet) :=
  sampleClient.complete (fun _ => .ok ()) discovered ⟨"client", none⟩ samplePending sampleCallback

theorem begin_sample :
    sampleClient.begin (fun _ => .ok ()) (fun _ => "") honestServer ⟨"client", none⟩ [] "xyz"
      "verifier" = .ok samplePending := rfl

/-- The token endpoint rejects the code. -/
def sampleTrace (tokenEndpoint : String) : OAuthTrace :=
  [⟨.exchange
      { tokenEndpoint
        clientId := "client"
        clientSecret := none
        redirectUri := "http://127.0.0.1:7777/callback"
        code := "abc"
        pkceVerifier := "verifier"
        resource := "https://mcp.example.com/mcp" },
    .error "rejected"⟩]

/-- Where it began, the code is bound. -/
theorem same_issuer_bound :
    CodeBound honestServer "xyz" sampleCallback honestServer
      (sampleTrace "https://as.example.com/token") := by
  have hrun : Performs (sampleCompletion honestServer)
      (sampleTrace "https://as.example.com/token") (.error (.tokenExchange "rejected")) :=
    .call (.ret _)
  exact (code_bound_iff (fun _ => .ok ()) (fun _ => "") sampleClient honestServer
    ⟨"client", none⟩ [] "xyz" "verifier" samplePending begin_sample honestServer
    ⟨"client", none⟩ sampleCallback).mpr (.inl rfl) _ _ hrun

/-- At another server the code and the verifier go to that one. -/
theorem other_issuer_gets_code :
    ¬ ∀ tr result, Performs (sampleCompletion attackingServer) tr result →
      CodeBound honestServer "xyz" sampleCallback attackingServer tr := by
  intro hbound
  have hrun : Performs (sampleCompletion attackingServer)
      (sampleTrace "https://attacker.example/token") (.error (.tokenExchange "rejected")) :=
    .call (.ret _)
  have hissuer := ((hbound _ _ hrun).sent _ List.mem_cons_self _ rfl).2
  exact absurd hissuer (by decide)

end

end TurboMcp.Auth
