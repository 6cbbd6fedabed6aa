import TurboMcp.Auth.Engine

/-!
# Secrets stay with their issuer

However sessions overlap on a store, and whatever the network and the browser answer:
a client secret or a refresh token is only ever sent to the token endpoint of a
document that claims the very issuer it is from, and that was found at the well-known
places of that issuer (up to slashes at the end).  A session knows what it has been
answered; that what the store answers comes from the right issuer is an invariant of
the whole run.
-/

namespace TurboMcp.Auth.Binding

open TurboMcp.Core TurboMcp.Lib
open EngineProgram

/-- What one session has done so far. -/
abbrev Did := List (Σ e : EngineEffect, e.Reply)

/-- What it did as the bare client. -/
def baseOf (did : Did) : OAuthTrace :=
  did.filterMap fun
    | ⟨.base e, r⟩ => some ⟨e, r⟩
    | _ => none

/-! ## What a session knows -/

/-- `d` was found on the way from the engine's resource: its authorization server is the
first one that the resource's document lists, and says so itself. -/
def Discovers (x : OAuthLibraries) (engine : OAuthEngine) (challenge : Option BearerChallenge)
    (did : Did) (d : Discovered) : Prop :=
  ∃ issuer rest candidates candidates',
    d.resource.authorizationServers = issuer :: rest ∧
    resourceCandidates x.parseUrl engine.resource
      (challenge.bind BearerChallenge.resourceMetadata) = .ok candidates ∧
    Fetched x.statusText x.serdeText ProtectedResourceMetadata.decode candidates (baseOf did)
      d.resource ∧
    serverCandidates x.parseUrl issuer = .ok candidates' ∧
    Fetched x.statusText x.serdeText AuthorizationServerMetadata.decode candidates' (baseOf did)
      d.server ∧
    trimSlashes d.server.issuer = trimSlashes issuer ∧ d.server.hasPkce = true

/-- The strategy has given these credentials at this server. -/
inductive Obtained (x : OAuthLibraries) (did : Did) (server : AuthorizationServerMetadata) :
    RegistrationStrategy → ClientCredentials → Prop
  | preregistered {credentials : ClientCredentials} {expected : Option String}
      (h : ∀ issuer, expected = some issuer → trimSlashes issuer = trimSlashes server.issuer) :
      Obtained x did server (.preregistered credentials expected) credentials
  | metadataDocument {url : String} (h : server.clientIdMetadataDocumentSupported = some true) :
      Obtained x did server (.metadataDocument url) (.publicClient url)
  | dynamic {request : DynamicRegistration} {endpoint : String}
      {reply : Except String RegistrationReply} {credentials : ClientCredentials}
      (hendpoint : server.registrationEndpoint = some endpoint)
      (hreply : ⟨.register endpoint request, reply⟩ ∈ did)
      (hregistered : registered x reply = .ok credentials) :
      Obtained x did server (.dynamic request) credentials

/-- The credentials are the issuer's stored ones, or newly obtained. -/
def Holds (x : OAuthLibraries) (engine : OAuthEngine) (did : Did)
    (server : AuthorizationServerMetadata) (credentials : ClientCredentials) : Prop :=
  ⟨.loadClient server.issuer, some credentials⟩ ∈ did ∨
    Obtained x did server engine.strategy credentials

/-- The server's token endpoint has granted this, for the engine's resource. -/
def Granted (engine : OAuthEngine) (did : Did) (server : AuthorizationServerMetadata)
    (token : TokenResponse) : Prop :=
  (∃ request : CodeExchange, request.tokenEndpoint = server.tokenEndpoint ∧
      request.resource = engine.resource ∧ ⟨.base (.exchange request), .ok token⟩ ∈ did) ∨
    ∃ request : RefreshExchange, request.tokenEndpoint = server.tokenEndpoint ∧
      request.resource = engine.resource ∧ ⟨.redeem request, .ok token⟩ ∈ did

/-- The refresh token is a stored one of the issuer and the resource, or newly granted. -/
def Refreshable (engine : OAuthEngine) (did : Did) (server : AuthorizationServerMetadata)
    (refreshToken : String) : Prop :=
  (∃ tokens : TokenSet, tokens.refreshToken = some refreshToken ∧
      ⟨.loadTokens server.issuer engine.resource, some tokens⟩ ∈ did) ∨
    ∃ token, Granted engine did server token ∧ token.refreshToken = some refreshToken

/-- What may be stored. -/
structure Storable (engine : OAuthEngine) (did : Did) (server : AuthorizationServerMetadata)
    (tokens : TokenSet) : Prop where
  access : ∃ token, Granted engine did server token ∧ token.accessToken = tokens.accessToken
  refresh : ∀ t, tokens.refreshToken = some t → Refreshable engine did server t

/-- The browser has brought the code, under the state that was drawn with the verifier,
and as from this server. -/
def Confirmed (x : OAuthLibraries) (did : Did) (d : Discovered) (code verifier : String) : Prop :=
  ∃ state authorizeUrl url, ⟨.newRandom, (state, verifier)⟩ ∈ did ∧
    ⟨.redirect authorizeUrl, url⟩ ∈ did ∧
    Accepted state d.server.issuer d.announcesIss (.fromQuery x.parseForm url) ∧
    (CallbackParams.fromQuery x.parseForm url).code = some code

/-- The exchange of a code at `d`'s server. -/
def codeExchange (engine : OAuthEngine) (d : Discovered) (credentials : ClientCredentials)
    (code verifier : String) : CodeExchange where
  tokenEndpoint := d.server.tokenEndpoint
  clientId := credentials.clientId
  clientSecret := credentials.clientSecret
  redirectUri := engine.redirectUri
  code
  pkceVerifier := verifier
  resource := engine.resource

/-- The redemption of a refresh token there. -/
def refreshExchange (engine : OAuthEngine) (d : Discovered) (credentials : ClientCredentials)
    (refreshToken : String) : RefreshExchange where
  tokenEndpoint := d.server.tokenEndpoint
  clientId := credentials.clientId
  clientSecret := credentials.clientSecret
  refreshToken
  resource := engine.resource

/-- What a session must know for an effect. -/
def Allowed (x : OAuthLibraries) (engine : OAuthEngine) (challenge : Option BearerChallenge)
    (did : Did) : EngineEffect → Prop
  | .base (.exchange request) => ∃ d credentials code verifier,
      Discovers x engine challenge did d ∧ Holds x engine did d.server credentials ∧
        Confirmed x did d code verifier ∧
        request = codeExchange engine d credentials code verifier
  | .redeem request => ∃ d credentials refreshToken,
      Discovers x engine challenge did d ∧ Holds x engine did d.server credentials ∧
        Refreshable engine did d.server refreshToken ∧
        request = refreshExchange engine d credentials refreshToken
  | .base (.storeTokens issuer resource tokens) => ∃ d,
      Discovers x engine challenge did d ∧ issuer = d.server.issuer ∧
        resource = engine.resource ∧ Storable engine did d.server tokens
  | .register endpoint request => ∃ d, Discovers x engine challenge did d ∧
      d.server.registrationEndpoint = some endpoint ∧ engine.strategy = .dynamic request
  | .storeClient issuer credentials => ∃ d, Discovers x engine challenge did d ∧
      issuer = d.server.issuer ∧ Obtained x did d.server engine.strategy credentials
  | .removeClient _ | .removeTokens _ => False
  | _ => True

/-- Whoever clears does nothing else. -/
def TaskAllowed (x : OAuthLibraries) : EngineTask → Did → EngineEffect → Prop
  | .session engine challenge _, did, e => Allowed x engine challenge did e
  | .clear issuer, _, e => e = .removeClient issuer ∨ e = .removeTokens issuer

/-! ## Knowing more -/

section

variable {x : OAuthLibraries} {engine : OAuthEngine} {challenge : Option BearerChallenge}
  {did did' : Did} {d : Discovered} {server : AuthorizationServerMetadata}
  {credentials : ClientCredentials}

theorem mem_baseOf {e : OAuthEffect} {r : e.Reply} :
    (⟨e, r⟩ : Σ e : OAuthEffect, e.Reply) ∈ baseOf did ↔ ⟨.base e, r⟩ ∈ did := by
  unfold baseOf
  rw [List.mem_filterMap]
  constructor
  · rintro ⟨⟨e', r'⟩, hmem, heq⟩
    cases e' <;> cases heq
    exact hmem
  · intro hmem
    exact ⟨_, hmem, rfl⟩

theorem baseOf_subset (h : did ⊆ did') : ∀ y ∈ baseOf did, y ∈ baseOf did' := by
  rintro ⟨e, r⟩ hy
  exact mem_baseOf.mpr (h (mem_baseOf.mp hy))

theorem Discovers.grow (h : Discovers x engine challenge did d) (hsub : did ⊆ did') :
    Discovers x engine challenge did' d := by
  obtain ⟨issuer, rest, candidates, candidates', hlisted, hcandidates, hresource, hcandidates',
    hserver, hissuer⟩ := h
  exact ⟨issuer, rest, candidates, candidates', hlisted, hcandidates,
    hresource.mono (baseOf_subset hsub), hcandidates', hserver.mono (baseOf_subset hsub), hissuer⟩

theorem Obtained.grow {strategy : RegistrationStrategy}
    (h : Obtained x did server strategy credentials) (hsub : did ⊆ did') :
    Obtained x did' server strategy credentials := by
  cases h with
  | preregistered h => exact .preregistered h
  | metadataDocument h => exact .metadataDocument h
  | dynamic hendpoint hreply hregistered => exact .dynamic hendpoint (hsub hreply) hregistered

theorem Holds.grow (h : Holds x engine did server credentials) (hsub : did ⊆ did') :
    Holds x engine did' server credentials := by
  rcases h with hstored | hobtained
  · exact .inl (hsub hstored)
  · exact .inr (hobtained.grow hsub)

theorem Granted.grow {token : TokenResponse} (h : Granted engine did server token)
    (hsub : did ⊆ did') : Granted engine did' server token := by
  rcases h with ⟨request, hendpoint, hresource, hmem⟩ | ⟨request, hendpoint, hresource, hmem⟩
  · exact .inl ⟨request, hendpoint, hresource, hsub hmem⟩
  · exact .inr ⟨request, hendpoint, hresource, hsub hmem⟩

theorem Refreshable.grow {t : String} (h : Refreshable engine did server t)
    (hsub : did ⊆ did') : Refreshable engine did' server t := by
  rcases h with ⟨tokens, ht, hmem⟩ | ⟨token, hgranted, ht⟩
  · exact .inl ⟨tokens, ht, hsub hmem⟩
  · exact .inr ⟨token, hgranted.grow hsub, ht⟩

/-- The rule for one session. -/
abbrev rule (x : OAuthLibraries) (engine : OAuthEngine) (challenge : Option BearerChallenge) :
    Protocol EngineEffect EngineEffect.Reply Did := Program.tracing (Allowed x engine challenge)

theorem follows_ask {π : Protocol EngineEffect EngineEffect.Reply Did} {α : Type}
    {e : EngineEffect} {f : e.Reply → EngineProgram α} {Q : Did → α → Prop} :
    Program.Follows π did (ask e >>= f) Q ↔
      π.allows did e ∧ ∀ r, Program.Follows π (π.after did e r) (f r) Q := Iff.rfl

instance (e : OAuthEffect) : Nonempty e.Reply := by
  cases e with
  | get _ | exchange _ => exact ⟨.error ""⟩
  | now => exact ⟨0⟩
  | storeTokens _ _ _ => exact ⟨()⟩

instance (e : OAuthEffect) : Nonempty (EngineEffect.base e).Reply :=
  inferInstanceAs (Nonempty e.Reply)

/-! ## One session -/

theorem follows_discover :
    Program.Follows (rule x engine challenge) [] (engine.discover x challenge) fun did found =>
      ∀ d, found = .ok d → Discovers x engine challenge did d := by
  have hgets : Program.wp (fun e => ∀ before, Allowed x engine challenge before (.base e))
      (fun _ _ => True) (discover x.parseUrl x.statusText x.serdeText engine.resource challenge)
      fun _ => True := by
    apply Program.wp_of_performs
    intro tr found hperforms y hy before
    obtain ⟨url, heq⟩ := (discover_checks _ _ _ _ _ _ _ hperforms).1 y hy
    rw [heq]
    trivial
  refine (Program.follows_lift hgets).mono ?_
  rintro did found ⟨tr, rfl, hperforms⟩ d hd
  obtain ⟨issuer, rest, candidates, candidates', hlisted, hcandidates, hresource, hcandidates',
    hserver, hissuer⟩ := (discover_checks _ _ _ _ _ _ _ hperforms).2 d hd
  have hsub : ∀ y ∈ tr, y ∈ baseOf ([] ++ Program.renamed EngineEffect.base tr) := by
    rintro ⟨e, r⟩ hy
    exact mem_baseOf.mpr (Program.mem_renamed hy)
  exact ⟨issuer, rest, candidates, candidates', hlisted, hcandidates, hresource.mono hsub,
    hcandidates', hserver.mono hsub, hissuer⟩

/-- What comes of a strategy. -/
theorem follows_obtainCredentials (hd : Discovers x engine challenge did d) :
    Program.Follows (rule x engine challenge) did (obtainCredentials x d.server engine.strategy)
      fun did' obtained => did ⊆ did' ∧ ∀ credentials, obtained = .ok credentials →
        Obtained x did' d.server engine.strategy credentials := by
  cases hstrategy : engine.strategy with
  | preregistered credentials expected =>
      cases hconflict : issuerConflict expected d.server with
      | some issuer =>
          simp only [obtainCredentials, hconflict]
          exact ⟨List.Subset.refl _, fun _ h => by cases h⟩
      | none =>
          simp only [obtainCredentials, hconflict]
          refine ⟨List.Subset.refl _, fun _ h => ?_⟩
          obtain rfl := Except.ok.inj h
          apply Obtained.preregistered
          rintro issuer rfl
          simpa [issuerConflict] using hconflict
  | metadataDocument url =>
      by_cases hsupported : d.server.clientIdMetadataDocumentSupported = some true
      · simp only [obtainCredentials, hsupported, ne_eq, not_true_eq_false, if_false]
        refine ⟨List.Subset.refl _, fun _ h => ?_⟩
        obtain rfl := Except.ok.inj h
        exact .metadataDocument hsupported
      · simp only [obtainCredentials, ne_eq, hsupported, not_false_eq_true, if_true]
        exact ⟨List.Subset.refl _, fun _ h => by cases h⟩
  | dynamic request =>
      cases hendpoint : d.server.registrationEndpoint with
      | none =>
          simp only [obtainCredentials, hendpoint]
          exact ⟨List.Subset.refl _, fun _ h => by cases h⟩
      | some endpoint =>
          simp only [obtainCredentials, hendpoint]
          refine follows_ask.mpr ⟨⟨d, hd, hendpoint, hstrategy⟩, fun reply => ?_⟩
          exact ⟨List.subset_append_left .., fun credentials h =>
            .dynamic hendpoint (List.mem_append_right _ (List.mem_singleton_self _)) h⟩

theorem follows_credentials (hd : Discovers x engine challenge did d) :
    Program.Follows (rule x engine challenge) did (engine.credentials x d)
      fun did' obtained => did ⊆ did' ∧ ∀ credentials, obtained = .ok credentials →
        Holds x engine did' d.server credentials := by
  unfold OAuthEngine.credentials
  refine follows_ask.mpr ⟨trivial, fun stored => ?_⟩
  have hload : did ⊆ did ++ [⟨.loadClient d.server.issuer, stored⟩] := List.subset_append_left ..
  cases stored with
  | some stored =>
      refine ⟨hload, fun _ h => ?_⟩
      obtain rfl := Except.ok.inj h
      exact .inl (List.mem_append_right _ (List.mem_singleton_self _))
  | none =>
      refine (follows_obtainCredentials (hd.grow hload)).seq ?_
      rintro did' obtained ⟨hsub, hobtained⟩
      cases obtained with
      | error e => exact ⟨List.Subset.trans hload hsub, fun _ h => by cases h⟩
      | ok credentials =>
          have hcredentials := hobtained credentials rfl
          refine follows_ask.mpr
            ⟨⟨d, hd.grow (List.Subset.trans hload hsub), rfl, hcredentials⟩, fun _ => ?_⟩
          refine ⟨List.Subset.trans (List.Subset.trans hload hsub) (List.subset_append_left ..),
            fun _ h => ?_⟩
          obtain rfl := Except.ok.inj h
          exact .inr (hcredentials.grow (List.subset_append_left ..))

/-- What a session may hold: its refresh token is one to be sent to the server. -/
def Held (engine : OAuthEngine) (did : Did) (server : AuthorizationServerMetadata)
    (tokens : TokenSet) : Prop :=
  ∀ t, tokens.refreshToken = some t → Refreshable engine did server t

theorem Held.grow {tokens : TokenSet} (h : Held engine did server tokens) (hsub : did ⊆ did') :
    Held engine did' server tokens :=
  fun t ht => (h t ht).grow hsub

/-- A new grant, stored. -/
theorem follows_store (hd : Discovers x engine challenge did d) {token : TokenResponse}
    (hgranted : Granted engine did d.server token) (tokens : Nat → TokenSet)
    (haccess : ∀ now, (tokens now).accessToken = token.accessToken)
    (hheld : ∀ now, Held engine did d.server (tokens now)) :
    Program.Follows (rule x engine challenge) did
      (do
        let now ← ask (.base .now)
        ask (.base (.storeTokens d.server.issuer engine.resource (tokens now)))
        pure (.ok (tokens now) : Except OAuthClientError TokenSet))
      fun did' result => did ⊆ did' ∧ ∀ tokens, result = .ok tokens →
        Held engine did' d.server tokens := by
  refine follows_ask.mpr ⟨trivial, fun now => ?_⟩
  have hnow : did ⊆ did ++ [⟨.base .now, now⟩] := List.subset_append_left ..
  refine follows_ask.mpr ⟨⟨d, hd.grow hnow, rfl, rfl, ?_, ?_⟩, fun _ => ?_⟩
  · exact ⟨token, hgranted.grow hnow, (haccess now).symm⟩
  · exact (hheld now).grow hnow
  · have hsub := List.Subset.trans hnow (List.subset_append_left _
      [⟨.base (.storeTokens d.server.issuer engine.resource (tokens now)), ()⟩])
    refine ⟨hsub, fun _ h => ?_⟩
    obtain rfl := Except.ok.inj h
    exact (hheld now).grow hsub

theorem follows_refresh (hd : Discovers x engine challenge did d)
    (hcredentials : Holds x engine did d.server credentials) {tokens : TokenSet}
    (hheld : Held engine did d.server tokens) :
    Program.Follows (rule x engine challenge) did (engine.refresh x d credentials tokens)
      fun did' result => did ⊆ did' ∧ ∀ tokens, result = .ok tokens →
        Held engine did' d.server tokens := by
  unfold OAuthEngine.refresh
  split
  · exact ⟨List.Subset.refl _, fun _ h => by cases h⟩
  · rename_i t ht
    split
    · exact ⟨List.Subset.refl _, fun _ h => by cases h⟩
    · refine follows_ask.mpr
        ⟨⟨d, credentials, t, hd, hcredentials, hheld t ht, rfl⟩, fun token => ?_⟩
      have hsub : did ⊆ did ++ [⟨.redeem (refreshExchange engine d credentials t), token⟩] :=
        List.subset_append_left ..
      cases token with
      | error e => exact ⟨hsub, fun _ h => by cases h⟩
      | ok token =>
          have hgranted : Granted engine
              (did ++ [⟨.redeem (refreshExchange engine d credentials t), .ok token⟩]) d.server
              token :=
            .inr ⟨_, rfl, rfl, List.mem_append_right _ (List.mem_singleton_self _)⟩
          refine (follows_store (hd.grow hsub) hgranted (OAuthEngine.rotate tokens token)
            (fun _ => rfl) fun now t' ht' => ?_).mono fun did' result h =>
              ⟨List.Subset.trans hsub h.1, h.2⟩
          -- the old refresh token stays where no new one is sent
          cases hnew : token.refreshToken with
          | some fresh =>
              rw [OAuthEngine.rotate, toTokenSet, hnew] at ht'
              exact .inr ⟨token, hgranted, hnew.trans ht'⟩
          | none =>
              rw [OAuthEngine.rotate, toTokenSet, hnew] at ht'
              exact (hheld t' ht').grow hsub

theorem follows_authorize (hd : Discovers x engine challenge did d)
    (hcredentials : Holds x engine did d.server credentials) (scopes : List String) :
    Program.Follows (rule x engine challenge) did (engine.authorize x d credentials scopes)
      fun did' result => did ⊆ did' ∧ ∀ tokens, result = .ok tokens →
        Held engine did' d.server tokens := by
  unfold OAuthEngine.authorize
  refine follows_ask.mpr ⟨trivial, fun drawn => ?_⟩
  have hdrawn : did ⊆ did ++ [⟨.newRandom, drawn⟩] := List.subset_append_left ..
  split
  · exact ⟨hdrawn, fun _ h => by cases h⟩
  · rename_i pending hbegin
    refine follows_ask.mpr ⟨trivial, fun url => ?_⟩
    let before : Did := did ++ [⟨.newRandom, drawn⟩] ++ [⟨.redirect pending.authorizeUrl, url⟩]
    have hsub : did ⊆ before := List.Subset.trans hdrawn (List.subset_append_left ..)
    change Program.Follows (rule x engine challenge) before _ _
    have hverifier : pending.pkceVerifier = drawn.2 := by
      unfold OAuthClient.begin at hbegin
      split at hbegin
      · cases hbegin
      · cases hbegin
        rfl
    unfold OAuthClient.complete
    split
    · exact ⟨hsub, fun _ h => by cases h⟩
    · rename_i code hcode
      split
      · exact ⟨hsub, fun _ h => by cases h⟩
      · obtain ⟨haccepts, hcode⟩ := checkCallback_eq_ok_iff.mp hcode
        have hconfirmed : Confirmed x before d code drawn.2 :=
          ⟨drawn.1, pending.authorizeUrl, url,
            List.mem_append_left _ (List.mem_append_right _ (List.mem_singleton_self _)),
            List.mem_append_right _ (List.mem_singleton_self _),
            (accepts_of_begin hbegin _).mp haccepts, hcode⟩
        rw [hverifier]
        refine ⟨⟨d, credentials, code, drawn.2, hd.grow hsub, hcredentials.grow hsub, hconfirmed,
          rfl⟩, fun token => ?_⟩
        have hsent : before ⊆ before ++
            [⟨.base (.exchange (codeExchange engine d credentials code drawn.2)), token⟩] :=
          List.subset_append_left ..
        cases token with
        | error e => exact ⟨List.Subset.trans hsub hsent, fun _ h => by cases h⟩
        | ok token =>
            have hgranted : Granted engine (before ++
                [⟨.base (.exchange (codeExchange engine d credentials code drawn.2)), .ok token⟩])
                d.server token :=
              .inl ⟨_, rfl, rfl, List.mem_append_right _ (List.mem_singleton_self _)⟩
            refine (follows_store (hd.grow (List.Subset.trans hsub hsent)) hgranted
              (toTokenSet token pending.scopes) (fun _ => rfl) fun now t ht => ?_).mono
              fun did' result h =>
                ⟨List.Subset.trans (List.Subset.trans hsub hsent) h.1, h.2⟩
            exact .inr ⟨token, hgranted, ht⟩

theorem follows_step (hd : Discovers x engine challenge did d)
    (hcredentials : Holds x engine did d.server credentials) {held : Option TokenSet}
    (hheld : ∀ tokens, held = some tokens → Held engine did d.server tokens)
    (s : OAuthEngine.SessionStep) :
    Program.Follows (rule x engine challenge) did (engine.step x challenge d credentials held s)
      fun did' result => did ⊆ did' ∧ ∀ held, result = .ok held →
        ∀ tokens, held = some tokens → Held engine did' d.server tokens := by
  have hmap : ∀ (did' : Did) (result : Except OAuthClientError TokenSet),
      (did ⊆ did' ∧ ∀ tokens, result = .ok tokens → Held engine did' d.server tokens) →
      did ⊆ did' ∧ ∀ held, result.map some = .ok held →
        ∀ tokens, held = some tokens → Held engine did' d.server tokens := by
    rintro did' result ⟨hsub, hresult⟩
    refine ⟨hsub, fun held hok tokens hheld => ?_⟩
    cases result with
    | error e => cases hok
    | ok got =>
        obtain rfl := Except.ok.inj hok
        obtain rfl := Option.some.inj hheld
        exact hresult _ rfl
  cases s with
  | authorize => exact (follows_authorize hd hcredentials _).seq hmap
  | stepUp challenged => exact (follows_authorize hd hcredentials _).seq hmap
  | renewHeld =>
      cases held with
      | none => exact ⟨List.Subset.refl _, fun held hok tokens h => by cases hok; cases h⟩
      | some tokens => exact (follows_refresh hd hcredentials (hheld tokens rfl)).seq hmap
  | renewStored =>
      refine follows_ask.mpr ⟨trivial, fun stored => ?_⟩
      have hload : did ⊆ did ++ [⟨.loadTokens d.server.issuer engine.resource, stored⟩] :=
        List.subset_append_left ..
      cases stored with
      | none =>
          refine ⟨hload, fun held' hok tokens h => ?_⟩
          obtain rfl := Except.ok.inj hok
          exact (hheld tokens h).grow hload
      | some tokens =>
          have hstored : Held engine (did ++
              [⟨.loadTokens d.server.issuer engine.resource, some tokens⟩]) d.server tokens :=
            fun t ht => .inl ⟨tokens, ht, List.mem_append_right _ (List.mem_singleton_self _)⟩
          refine (follows_refresh (hd.grow hload) (hcredentials.grow hload) hstored).seq ?_
          exact fun did' result h => hmap did' result
            ⟨List.Subset.trans hload h.1, h.2⟩

theorem follows_steps (todo : List OAuthEngine.SessionStep)
    (hd : Discovers x engine challenge did d)
    (hcredentials : Holds x engine did d.server credentials) {held : Option TokenSet}
    (hheld : ∀ tokens, held = some tokens → Held engine did d.server tokens) :
    Program.Follows (rule x engine challenge) did
      (engine.steps x challenge d credentials todo held) fun _ _ => True := by
  induction todo generalizing did held with
  | nil => trivial
  | cons s todo ih =>
      rw [OAuthEngine.steps]
      refine (follows_step hd hcredentials hheld s).seq ?_
      rintro did' result ⟨hsub, hresult⟩
      cases result with
      | ok held' => exact ih (hd.grow hsub) (hcredentials.grow hsub) (hresult held' rfl)
      | error e =>
          refine ih (hd.grow hsub) (hcredentials.grow hsub) fun tokens h => ?_
          exact (hheld tokens h).grow hsub

/-- Every task keeps to its rule. -/
theorem follows_program (x : OAuthLibraries) (task : EngineTask) :
    Program.Follows (Program.tracing (TaskAllowed x task)) [] (task.program x)
      fun _ _ => True := by
  cases task with
  | clear issuer => exact ⟨.inl rfl, fun _ => ⟨.inr rfl, fun _ => trivial⟩⟩
  | session engine challenge todo =>
      refine follows_discover.seq fun did found hfound => ?_
      cases found with
      | error e => trivial
      | ok d =>
          refine (follows_credentials (hfound d rfl)).seq ?_
          rintro did' obtained ⟨hsub, hobtained⟩
          cases obtained with
          | error e => trivial
          | ok credentials =>
              refine follows_steps todo ((hfound d rfl).grow hsub) (hobtained _ rfl) ?_
              exact fun tokens h => by cases h

end

/-! ## The store -/

section

/-- The entries of a run. -/
abbrev EngineLog :=
  List (Logged EngineEffect EngineEffect.Reply ((e : EngineEffect) → e.Reply))

variable (x : OAuthLibraries) (born : List EngineTask) (log : EngineLog)

/-- The `n`th task is a session of the engine. -/
def SessionOf (n : Nat) (engine : OAuthEngine) (challenge : Option BearerChallenge) : Prop :=
  ∃ todo, born[n]? = some (.session engine challenge todo)

/-- Some session has found a server with this very issuer. -/
def Found (issuer : String) (n : Nat) (engine : OAuthEngine) (d : Discovered) : Prop :=
  d.server.issuer = issuer ∧ ∃ challenge, SessionOf born n engine challenge ∧
    Discovers x engine challenge (Logged.own n log) d

/-- The credentials are the issuer's: a session that found it has obtained them there. -/
def Registered (issuer : String) (credentials : ClientCredentials) : Prop :=
  ∃ n engine d, Found x born log issuer n engine d ∧
    Obtained x (Logged.own n log) d.server engine.strategy credentials

/-- A session that found the issuer has been granted this there, for the resource. -/
def GrantedBy (issuer resource : String) (token : TokenResponse) : Prop :=
  ∃ n engine d, Found x born log issuer n engine d ∧ engine.resource = resource ∧
    Granted engine (Logged.own n log) d.server token

/-- The tokens are the issuer's, for the resource. -/
structure Genuine (issuer resource : String) (tokens : TokenSet) : Prop where
  access : ∃ token, GrantedBy x born log issuer resource token ∧
    token.accessToken = tokens.accessToken
  refresh : ∀ t, tokens.refreshToken = some t →
    ∃ token, GrantedBy x born log issuer resource token ∧ token.refreshToken = some t

/-- A code goes to the server it was asked of, with credentials of that issuer. -/
def CodeSent (n : Nat) (request : CodeExchange) : Prop :=
  ∃ engine d credentials code verifier, Found x born log d.server.issuer n engine d ∧
    Registered x born log d.server.issuer credentials ∧
    Confirmed x (Logged.own n log) d code verifier ∧
    request = codeExchange engine d credentials code verifier

/-- A refresh token goes to a server of the issuer that granted it, for the resource it was
granted for, with credentials of that issuer. -/
def RefreshSent (n : Nat) (request : RefreshExchange) : Prop :=
  ∃ engine d credentials t token, Found x born log d.server.issuer n engine d ∧
    Registered x born log d.server.issuer credentials ∧
    GrantedBy x born log d.server.issuer engine.resource token ∧ token.refreshToken = some t ∧
    request = refreshExchange engine d credentials t

/-- What one entry says, by what was logged before it. -/
structure Bound (n : Nat) (did : Σ e : EngineEffect, e.Reply) : Prop where
  code : ∀ request reply, did = ⟨.base (.exchange request), reply⟩ →
    CodeSent x born log n request
  refresh : ∀ request reply, did = ⟨.redeem request, reply⟩ → RefreshSent x born log n request
  client : ∀ issuer credentials, did = ⟨.loadClient issuer, some credentials⟩ →
    Registered x born log issuer credentials
  tokens : ∀ issuer resource tokens, did = ⟨.loadTokens issuer resource, some tokens⟩ →
    Genuine x born log issuer resource tokens

/-- What the store holds is filed under the issuer it is from. -/
structure Filed (store : MemoryCredentialStore) : Prop where
  clients : ∀ issuer credentials, store.loadClient issuer = some credentials →
    Registered x born log issuer credentials
  tokens : ∀ issuer resource tokens, store.loadTokens issuer resource = some tokens →
    Genuine x born log issuer resource tokens

/-- The invariant. -/
structure Secured (store : MemoryCredentialStore) : Prop where
  filed : Filed x born log store
  bound : ∀ before entry after, log = before ++ entry :: after →
    Bound x born before entry.thread entry.did

end

/-! ## Later in the run -/

section

variable {x : OAuthLibraries} {born born' : List EngineTask} {log log' : EngineLog}
  {issuer resource : String} {n : Nat} {engine : OAuthEngine} {d : Discovered}

/-- More tasks have been started, and each has done more. -/
structure Later (born : List EngineTask) (log : EngineLog) (born' : List EngineTask)
    (log' : EngineLog) : Prop where
  started : ∀ (n : Nat) (task : EngineTask), born[n]? = some task → born'[n]? = some task
  performed : ∀ n, Logged.own n log ⊆ Logged.own n log'

theorem later_spawn (born : List EngineTask) (task : EngineTask) (log : EngineLog) :
    Later born log (born ++ [task]) log :=
  ⟨fun _ _ h => List.getElem?_append_left (List.getElem?_eq_some_iff.mp h).1 ▸ h,
    fun _ => List.Subset.refl _⟩

theorem later_append (born : List EngineTask) (log more : EngineLog) :
    Later born log born (log ++ more) := by
  refine ⟨fun _ _ h => h, fun n => ?_⟩
  rw [Logged.own_append]
  exact List.subset_append_left ..

theorem Found.later (h : Found x born log issuer n engine d) (hlater : Later born log born' log') :
    Found x born' log' issuer n engine d := by
  obtain ⟨hissuer, challenge, ⟨todo, hsession⟩, hdiscovers⟩ := h
  exact ⟨hissuer, challenge, ⟨todo, hlater.started _ _ hsession⟩,
    hdiscovers.grow (hlater.performed n)⟩

theorem Registered.later {credentials : ClientCredentials}
    (h : Registered x born log issuer credentials) (hlater : Later born log born' log') :
    Registered x born' log' issuer credentials := by
  obtain ⟨n, engine, d, hfound, hobtained⟩ := h
  exact ⟨n, engine, d, hfound.later hlater, hobtained.grow (hlater.performed n)⟩

theorem GrantedBy.later {token : TokenResponse} (h : GrantedBy x born log issuer resource token)
    (hlater : Later born log born' log') : GrantedBy x born' log' issuer resource token := by
  obtain ⟨n, engine, d, hfound, hresource, hgranted⟩ := h
  exact ⟨n, engine, d, hfound.later hlater, hresource, hgranted.grow (hlater.performed n)⟩

theorem Genuine.later {tokens : TokenSet} (h : Genuine x born log issuer resource tokens)
    (hlater : Later born log born' log') : Genuine x born' log' issuer resource tokens := by
  refine ⟨?_, fun t ht => ?_⟩
  · obtain ⟨token, hgranted, haccess⟩ := h.access
    exact ⟨token, hgranted.later hlater, haccess⟩
  · obtain ⟨token, hgranted, hrefresh⟩ := h.refresh t ht
    exact ⟨token, hgranted.later hlater, hrefresh⟩

theorem Confirmed.grow {did did' : Did} {code verifier : String}
    (h : Confirmed x did d code verifier) (hsub : did ⊆ did') :
    Confirmed x did' d code verifier := by
  obtain ⟨state, authorizeUrl, url, hdrawn, hredirect, haccepted⟩ := h
  exact ⟨state, authorizeUrl, url, hsub hdrawn, hsub hredirect, haccepted⟩

theorem Bound.later {did : Σ e : EngineEffect, e.Reply} (h : Bound x born log n did)
    (hlater : Later born log born' log') : Bound x born' log' n did := by
  refine ⟨fun request reply hdid => ?_, fun request reply hdid => ?_,
    fun issuer credentials hdid => (h.client _ _ hdid).later hlater,
    fun issuer resource tokens hdid => (h.tokens _ _ _ hdid).later hlater⟩
  · obtain ⟨engine, d, credentials, code, verifier, hfound, hregistered, hconfirmed, hrequest⟩ :=
      h.code request reply hdid
    exact ⟨engine, d, credentials, code, verifier, hfound.later hlater, hregistered.later hlater,
      hconfirmed.grow (hlater.performed n), hrequest⟩
  · obtain ⟨engine, d, credentials, t, token, hfound, hregistered, hgranted, hrequest⟩ :=
      h.refresh request reply hdid
    exact ⟨engine, d, credentials, t, token, hfound.later hlater, hregistered.later hlater,
      hgranted.later hlater, hrequest⟩

theorem Filed.later {store : MemoryCredentialStore} (h : Filed x born log store)
    (hlater : Later born log born' log') : Filed x born' log' store :=
  ⟨fun issuer credentials hload => (h.clients issuer credentials hload).later hlater,
    fun issuer resource tokens hload => (h.tokens issuer resource tokens hload).later hlater⟩

/-! ### What a session knows, in the run -/

theorem Found.intro {challenge : Option BearerChallenge} {todo : List OAuthEngine.SessionStep}
    (hborn : born[n]? = some (.session engine challenge todo))
    (hd : Discovers x engine challenge (Logged.own n log) d) :
    Found x born log d.server.issuer n engine d :=
  ⟨rfl, challenge, ⟨todo, hborn⟩, hd⟩

/-- What a task has done stands in the log, and is accounted for by what stands before. -/
theorem Secured.entry {store : MemoryCredentialStore} (h : Secured x born log store)
    {did : Σ e : EngineEffect, e.Reply} (hmem : did ∈ Logged.own n log) :
    Bound x born log n did := by
  obtain ⟨entry, hentry, rfl⟩ := List.mem_map.mp hmem
  obtain ⟨hlog, hthread⟩ := List.mem_filter.mp hentry
  obtain rfl := of_decide_eq_true hthread
  obtain ⟨before, after, rfl⟩ := List.append_of_mem hlog
  exact (h.bound before entry after rfl).later (later_append born before (entry :: after))

theorem Holds.registered {store : MemoryCredentialStore} (h : Secured x born log store)
    (hfound : Found x born log d.server.issuer n engine d) {credentials : ClientCredentials}
    (hholds : Holds x engine (Logged.own n log) d.server credentials) :
    Registered x born log d.server.issuer credentials := by
  rcases hholds with hstored | hobtained
  · exact (h.entry hstored).client _ _ rfl
  · exact ⟨n, engine, d, hfound, hobtained⟩

theorem Refreshable.grantedBy {store : MemoryCredentialStore} (h : Secured x born log store)
    (hfound : Found x born log d.server.issuer n engine d) {t : String}
    (ht : Refreshable engine (Logged.own n log) d.server t) :
    ∃ token, GrantedBy x born log d.server.issuer engine.resource token ∧
      token.refreshToken = some t := by
  rcases ht with ⟨tokens, ht, hstored⟩ | ⟨token, hgranted, ht⟩
  · exact ((h.entry hstored).tokens _ _ _ rfl).refresh t ht
  · exact ⟨token, ⟨n, engine, d, hfound, rfl, hgranted⟩, ht⟩

theorem Storable.genuine {store : MemoryCredentialStore} (h : Secured x born log store)
    (hfound : Found x born log d.server.issuer n engine d) {tokens : TokenSet}
    (hstorable : Storable engine (Logged.own n log) d.server tokens) :
    Genuine x born log d.server.issuer engine.resource tokens := by
  refine ⟨?_, fun t ht => (hstorable.refresh t ht).grantedBy h hfound⟩
  obtain ⟨token, hgranted, haccess⟩ := hstorable.access
  exact ⟨token, ⟨n, engine, d, hfound, rfl, hgranted⟩, haccess⟩

/-! ### One effect -/

/-- What an allowed effect does to the store. -/
theorem Filed.step {store : MemoryCredentialStore} (h : Secured x born log store)
    {task : EngineTask} (hborn : born[n]? = some task) {e : EngineEffect}
    (hallowed : TaskAllowed x task (Logged.own n log) e)
    (chosen : (e : EngineEffect) → e.Reply) :
    Filed x born log (storeAnswers chosen store e).2 := by
  cases e with
  | storeClient issuer credentials =>
      cases task with
      | clear issuer' => rcases hallowed with h | h <;> cases h
      | session engine challenge todo =>
          obtain ⟨d, hd, rfl, hobtained⟩ := hallowed
          refine ⟨fun issuer' credentials' hload => ?_, h.filed.tokens⟩
          simp only [storeAnswers, MemoryCredentialStore.loadClient,
            MemoryCredentialStore.storeClient, Dict.get_insert] at hload
          split at hload
          · rename_i heq
            obtain rfl := Option.some.inj hload
            obtain rfl := heq
            exact ⟨n, engine, d, .intro hborn hd, hobtained⟩
          · exact h.filed.clients issuer' credentials' hload
  | base e =>
      cases e with
      | storeTokens issuer resource tokens =>
          cases task with
          | clear issuer' => rcases hallowed with h | h <;> cases h
          | session engine challenge todo =>
              obtain ⟨d, hd, rfl, rfl, hstorable⟩ := hallowed
              refine ⟨h.filed.clients, fun issuer' resource' tokens' hload => ?_⟩
              simp only [storeAnswers, MemoryCredentialStore.loadTokens,
                MemoryCredentialStore.storeTokens, Dict.get_insert] at hload
              split at hload
              · rename_i heq
                obtain rfl := Option.some.inj hload
                obtain ⟨rfl, rfl⟩ := Prod.mk.inj heq
                exact hstorable.genuine h (.intro hborn hd)
              · exact h.filed.tokens issuer' resource' tokens' hload
      | get _ | exchange _ | now => exact h.filed
  | removeClient issuer =>
      refine ⟨fun issuer' credentials hload => ?_, h.filed.tokens⟩
      simp only [storeAnswers, MemoryCredentialStore.loadClient,
        MemoryCredentialStore.removeClient, Dict.get_remove] at hload
      split at hload
      · cases hload
      · exact h.filed.clients issuer' credentials hload
  | removeTokens issuer =>
      refine ⟨h.filed.clients, fun issuer' resource tokens hload => ?_⟩
      simp only [storeAnswers, MemoryCredentialStore.loadTokens,
        MemoryCredentialStore.removeTokens, Dict.get_retain] at hload
      obtain ⟨hget, -⟩ := Option.filter_eq_some_iff.mp hload
      exact h.filed.tokens issuer' resource tokens hget
  | _ => exact h.filed

/-- What an allowed effect sends, and what the store answers it. -/
theorem Bound.step {store : MemoryCredentialStore} (h : Secured x born log store)
    {task : EngineTask} (hborn : born[n]? = some task) {e : EngineEffect}
    (hallowed : TaskAllowed x task (Logged.own n log) e)
    (chosen : (e : EngineEffect) → e.Reply) :
    Bound x born log n ⟨e, (storeAnswers chosen store e).1⟩ := by
  refine ⟨?_, ?_, ?_, ?_⟩
  · rintro request reply hdid
    cases hdid
    cases task with
    | clear issuer => rcases hallowed with h | h <;> cases h
    | session engine challenge todo =>
        obtain ⟨d, credentials, code, verifier, hd, hholds, hconfirmed, hrequest⟩ := hallowed
        have hfound : Found x born log d.server.issuer n engine d := .intro hborn hd
        exact ⟨engine, d, credentials, code, verifier, hfound, hholds.registered h hfound,
          hconfirmed, hrequest⟩
  · rintro request reply hdid
    cases hdid
    cases task with
    | clear issuer => rcases hallowed with h | h <;> cases h
    | session engine challenge todo =>
        obtain ⟨d, credentials, t, hd, hholds, ht, hrequest⟩ := hallowed
        have hfound : Found x born log d.server.issuer n engine d := .intro hborn hd
        obtain ⟨token, hgranted, htoken⟩ := ht.grantedBy h hfound
        exact ⟨engine, d, credentials, t, token, hfound, hholds.registered h hfound, hgranted,
          htoken, hrequest⟩
  · rintro issuer credentials hdid
    obtain ⟨rfl, hreply⟩ := Sigma.mk.inj hdid
    exact h.filed.clients issuer credentials (eq_of_heq hreply)
  · rintro issuer resource tokens hdid
    obtain ⟨rfl, hreply⟩ := Sigma.mk.inj hdid
    exact h.filed.tokens issuer resource tokens (eq_of_heq hreply)

/-! ## Runs -/

theorem secured_nil : Secured x [] [] .new := by
  refine ⟨⟨fun issuer credentials h => ?_, fun issuer resource tokens h => ?_⟩,
    fun before entry after h => ?_⟩
  · cases h
  · cases h
  · cases before <;> cases h

theorem Secured.spawn {store : MemoryCredentialStore} (h : Secured x born log store)
    (task : EngineTask) : Secured x (born ++ [task]) log store :=
  ⟨h.filed.later (later_spawn born task log), fun before entry after hsplit =>
    (h.bound before entry after hsplit).later (later_spawn born task before)⟩

/-- An effect adds one entry, whose past is the log as it was. -/
theorem Secured.step {store store' : MemoryCredentialStore} (h : Secured x born log store)
    {task : EngineTask} (hborn : born[n]? = some task) {e : EngineEffect}
    (hallowed : TaskAllowed x task (Logged.own n log) e) {chosen : (e : EngineEffect) → e.Reply}
    {r : e.Reply} (hexec : (engines x).exec n chosen store e = .answer r store') :
    Secured x born (log ++ [⟨n, chosen, e, r⟩]) store' := by
  obtain ⟨rfl, rfl⟩ := Outcome.answer.inj hexec
  refine ⟨(Filed.step h hborn hallowed chosen).later (later_append born log _), ?_⟩
  intro before entry after hsplit
  rcases List.eq_nil_or_concat after with rfl | ⟨after, last, rfl⟩
  · obtain ⟨rfl, heq⟩ := List.append_inj' hsplit rfl
    obtain rfl := List.singleton_inj.mp heq
    exact Bound.step h hborn hallowed chosen
  · rw [List.concat_eq_append, ← List.cons_append, ← List.append_assoc] at hsplit
    obtain ⟨rfl, -⟩ := List.append_inj' hsplit rfl
    exact h.bound before entry after rfl

end

/-- **Secrets stay with their issuer**: in every run of sessions over a store that starts
empty, at every point, each code and each refresh token sent went to the token endpoint of a
server found, with credentials registered at that server's issuer, and a refresh token only
where that issuer had granted it, for the resource it had granted it for; and whatever is in
the store is filed under the issuer it is from. -/
theorem secrets_stay (x : OAuthLibraries)
    {tr : List (Act EngineTask ((e : EngineEffect) → e.Reply) ×
      Pool (MemoryCredentialStore × EngineLog) EngineEffect EngineEffect.Reply EngineTask)}
    (hrun : Run (engines x).logged.Step (Pool.init (MemoryCredentialStore.new, [])) tr) :
    ∀ P ∈ states (Pool.init (MemoryCredentialStore.new, [])) tr,
      Filed x P.born P.shared.2 P.shared.1 ∧
      ∀ before entry after, P.shared.2 = before ++ entry :: after →
        (∀ request reply, entry.did = ⟨.base (.exchange request), reply⟩ →
          CodeSent x P.born before entry.thread request) ∧
        ∀ request reply, entry.did = ⟨.redeem request, reply⟩ →
          RefreshSent x P.born before entry.thread request := by
  intro P hP
  have h : Secured x P.born P.shared.2 P.shared.1 :=
    Machine.logged_invariant_obeying (I := fun born store log => Secured x born log store)
      (follows_program x) secured_nil (fun _ task _ _ h => h.spawn task)
      (fun _ _ _ _ _ _ _ _ _ h hborn hallowed hexec => h.step hborn hallowed hexec)
      (fun _ _ _ _ _ _ _ _ hexec => by cases hexec) hrun P hP
  refine ⟨h.filed, fun before entry after hsplit => ?_⟩
  have hbound := h.bound before entry after hsplit
  exact ⟨hbound.code, hbound.refresh⟩

/-! ## Two sessions on one store -/

def sampleLibraries : OAuthLibraries where
  parseUrl := sampleUrls
  checkUrl _ := .ok ()
  statusText _ := "OK"
  serdeText _ := "missing field"
  authorizeUrl r := r.authorizationEndpoint ++ "?state=" ++ r.state
  parseForm query :=
    if query = "code=abc&state=xyz" then [("code", "abc"), ("state", "xyz")] else []

def sampleEngine : OAuthEngine where
  resource := "https://mcp.example.com/mcp"
  redirectUri := "http://127.0.0.1:19999/callback"
  strategy := .dynamic (.native "client" ["http://127.0.0.1:19999/callback"])

/-- The server's document, with an endpoint for registration. -/
def registeringDocument : Value :=
  .object [("issuer", .string "https://as.example.com"),
    ("authorization_endpoint", .string "https://as.example.com/authorize"),
    ("token_endpoint", .string "https://as.example.com/token"),
    ("registration_endpoint", .string "https://as.example.com/register"),
    ("code_challenge_methods_supported", .array [.string "S256"])]

def sampleAnswers : (e : EngineEffect) → e.Reply
  | .base (.get url) =>
      if url = "https://mcp.example.com/.well-known/oauth-protected-resource/mcp" then
        .ok ⟨200, .ok (resourceDocument "https://mcp.example.com/mcp")⟩
      else if url = "https://as.example.com/.well-known/oauth-authorization-server" then
        .ok ⟨200, .ok registeringDocument⟩
      else .ok ⟨404, .error "expected value"⟩
  | .base (.exchange _) => .ok ⟨"access-1", some "refresh-1", some 3600, none⟩
  | .base .now => 0
  | .base (.storeTokens _ _ _) => ()
  | .register _ _ =>
      .ok ⟨201, .ok "", .ok (.object [("client_id", .string "dyn-client-1"),
        ("client_secret", .string "secret-1")])⟩
  | .redeem _ => .ok ⟨"access-2", none, some 3600, none⟩
  | .loadClient _ => none
  | .storeClient _ _ => ()
  | .loadTokens _ _ => none
  | .removeClient _ => ()
  | .removeTokens _ => ()
  | .newRandom => ("xyz", "verifier")
  | .redirect _ => "http://127.0.0.1:19999/callback?code=abc&state=xyz"

abbrev SampleStore :=
  Pool (MemoryCredentialStore × EngineLog) EngineEffect EngineEffect.Reply EngineTask

/-- The first session registers and authorizes; the second, which has discovered the server
meanwhile, renews what the first has stored. -/
def sampleActs : List (Act EngineTask ((e : EngineEffect) → e.Reply)) :=
  [.spawn (.session sampleEngine none [.authorize]),
    .spawn (.session sampleEngine none [.renewStored])] ++
    ([0, 1, 0, 1, 0, 0, 0, 0, 0, 0, 0, 0, 1, 1, 1, 1, 1].map fun n => .run n sampleAnswers)

def sampleMachine : Machine (MemoryCredentialStore × EngineLog) EngineEffect EngineEffect.Reply
    EngineTask ((e : EngineEffect) → e.Reply) :=
  (engines sampleLibraries).logged

def sampleStart : SampleStore := Pool.init (.new, [])

def sampleRun : List (Act EngineTask ((e : EngineEffect) → e.Reply) × SampleStore) :=
  trace sampleMachine.act sampleStart sampleActs

def sampleEnd : SampleStore := final sampleStart sampleRun

/-- What the second session sends. -/
def sampleRefresh : RefreshExchange where
  tokenEndpoint := "https://as.example.com/token"
  clientId := "dyn-client-1"
  clientSecret := some "secret-1"
  refreshToken := "refresh-1"
  resource := "https://mcp.example.com/mcp"

theorem sample_sessions : Run sampleMachine.Step sampleStart sampleRun := by
  have hchecked : checked sampleMachine.act (fun P a => (sampleMachine.step P a).isSome)
      sampleStart sampleActs = true := by
    decide +kernel
  exact run_trace_of_checked (fun P a h => Machine.step_act h) hchecked

/-- The second session sends the secret and the refresh token of the first. -/
theorem secrets_stay_sample :
    ∃ before entry after, sampleEnd.shared.2 = before ++ entry :: after ∧
      entry.thread = 1 ∧ entry.did.1 = .redeem sampleRefresh ∧
      RefreshSent sampleLibraries sampleEnd.born before entry.thread sampleRefresh := by
  have hentry : (sampleEnd.shared.2[14]?).map (fun entry => (entry.thread, entry.did.1)) =
      some (1, .redeem sampleRefresh) := by
    decide +kernel
  obtain ⟨⟨n, chosen, ⟨e, r⟩⟩, hget, heq⟩ := Option.map_eq_some_iff.mp hentry
  obtain ⟨rfl, rfl⟩ := Prod.mk.inj heq
  obtain ⟨hlt, hget⟩ := List.getElem?_eq_some_iff.mp hget
  have hsplit := (List.take_append_drop 14 sampleEnd.shared.2).symm
  rw [List.drop_eq_getElem_cons hlt, hget] at hsplit
  have hsent := ((secrets_stay sampleLibraries sample_sessions sampleEnd
    (final_mem_states _ _)).2 _ _ _ hsplit).2 sampleRefresh r rfl
  exact ⟨_, _, _, hsplit, rfl, rfl, hsent⟩

end TurboMcp.Auth.Binding
