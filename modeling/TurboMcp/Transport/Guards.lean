import TurboMcp.Transport.Endpoint

/-!
# What passes the guards

Whatever the surroundings answer and however requests overlap: a message reaches
the service, a writer the table, a session its end only for a request that came
from an allowed origin and host, whose own credentials the authenticator allowed
and whose own bucket the limiter still charged.  What reaches the service is the
request's body under the marks of that very authentication.
-/

namespace TurboMcp.Transport.HttpEndpoint

open TurboMcp.Auth TurboMcp.Core TurboMcp.Lib TurboMcp.Server TurboMcp.Service
open TurboMcp.Transport.Http

/-! ## What each effect presupposes -/

/-- What one request has done so far. -/
abbrev Did := List (Σ e : EndpointEffect, e.Reply)

/-- The effects a rejected request must not have had. -/
def EndpointEffect.Serves : EndpointEffect → Prop
  | .mint | .register _ | .unregister _ | .pollReady | .call _ | .race _ _ _ | .terminate _ => True
  | _ => False

def EndpointEffect.Dispatches : EndpointEffect → Prop
  | .call _ | .race _ _ _ => True
  | _ => False

def EndpointEffect.Charges : EndpointEffect → Prop
  | .checkKey _ => True
  | _ => False

/-- The effects on the table of writers. -/
def EndpointEffect.Registers : EndpointEffect → Prop
  | .register _ | .unregister _ => True
  | _ => False

/-- The request has none of these behind it. -/
def Lacks (kind : EndpointEffect → Prop) (before : Did) : Prop := ∀ x ∈ before, ¬ kind x.1

def Acceptable (c : HttpConfig) (req : HttpRequest) : Prop :=
  match req.method with
  | .post => accepts c req.headers applicationJson = true ∧
      accepts c req.headers textEventStream = true ∧ ∃ msg, c.decode req.body = .ok msg
  | .get => accepts c req.headers textEventStream = true
  | .delete => True

/-- What is checked before anyone is asked. -/
structure Entered (c : HttpConfig) (req : HttpRequest) : Prop where
  origin : checkOrigin c.origins req.headers = none
  host : checkHost c.hosts req.headers = none
  acceptable : Acceptable c req

/-- The authenticator, if there is one, has allowed this request's own credentials as
`principal`. -/
def Identified (c : HttpConfig) (req : HttpRequest) (before : Did) (principal : Option Value) :
    Prop :=
  if c.authenticator then
    ∃ v, principal = some v ∧
      ⟨.authenticate (headerText req.headers "authorization"), .allow v⟩ ∈ before
  else principal = none

/-- The bucket of a request. -/
def bucketOf (c : HttpConfig) (req : HttpRequest) (principal : Option Value) : RateKey :=
  rateKey (subjectOf principal) (clientIp c req)

/-- The limiter, if there is one, has charged the request's bucket. -/
def Admitted (c : HttpConfig) (req : HttpRequest) (before : Did) (principal : Option Value) :
    Prop :=
  c.rateLimiter = true → ⟨.checkKey (bucketOf c req principal), none⟩ ∈ before

structure Cleared (c : HttpConfig) (req : HttpRequest) (before : Did)
    (principal : Option Value) : Prop where
  entered : Entered c req
  identified : Identified c req before principal
  admitted : Admitted c req before principal

/-- The checks of the headers that follow. -/
def passes (headers : HeaderMap) (msg : JsonRpcMessage) : Bool :=
  (unrecognized headers).isNone && (validateRequestHeaders msg headers).isNone

/-- The facts `mcp_post` marks a message by. -/
def facts (req : HttpRequest) (principal : Option Value) (minted stream : String) : Http.Post where
  principal
  sessionHeader := sessionHeader req.headers
  versionHeader := versionHeader req.headers
  minted
  stream
  passes := passes req.headers

/-- `msg` is the request's body under the marks of its principal, its headers, and the
session and the channel it has been given. -/
def Marked (c : HttpConfig) (req : HttpRequest) (before : Did) (principal : Option Value)
    (msg : JsonRpcMessage) : Prop :=
  ∃ sent minted stream, c.decode req.body = .ok sent ∧
    (facts req principal minted stream).accept sent = some msg ∧
    (isInitialize sent = true → ⟨.mint, minted⟩ ∈ before) ∧
    (opensStream sent = true → ⟨.register stream, ()⟩ ∈ before)

/-- What an answer presupposes: of a refusal nothing remains, and of what was served
only a stream keeps its writer. -/
def Answers (c : HttpConfig) (req : HttpRequest) (before : Did) : Answer → Prop
  | .refused _ => Lacks EndpointEffect.Serves before
  | .served _ _ => req.method = .post ∧ (∃ principal, Cleared c req before principal) ∧
      ∀ id, ⟨.register id, ()⟩ ∈ before →
        ⟨.unregister id, ()⟩ ∈ before ∨ ∃ msg found reply, ⟨.race id msg found, reply⟩ ∈ before
  | .stream id => (∃ principal, Cleared c req before principal) ∧ ⟨.register id, ()⟩ ∈ before ∧
      ⟨.unregister id, ()⟩ ∉ before
  | .terminated existed => ∃ sid, ⟨.terminate sid, existed⟩ ∈ before

/-- What the request must have behind it for an effect. -/
def Allowed (c : HttpConfig) (req : HttpRequest) (before : Did) : EndpointEffect → Prop
  | .authenticate authorization => Entered c req ∧ c.authenticator = true ∧
      authorization = headerText req.headers "authorization" ∧ before = []
  | .countCheck | .retainRecent => Entered c req ∧ c.rateLimiter = true ∧
      ∃ principal, Identified c req before principal
  | .checkKey key => Entered c req ∧ c.rateLimiter = true ∧
      Lacks EndpointEffect.Charges before ∧
      ∃ principal, Identified c req before principal ∧ key = bucketOf c req principal
  | .mint | .pollReady => req.method = .post ∧ ∃ principal, Cleared c req before principal
  | .register id => (∃ principal, Cleared c req before principal) ∧
      (req.method = .get ∧ (sessionHeader req.headers).map Outbound.sessionStreamId = some id ∨
        req.method = .post ∧ ∃ uuid, ⟨.mint, uuid⟩ ∈ before ∧
          (id = "http-sse-" ++ uuid ∨ id = "http-post-" ++ uuid))
  | .unregister id => ⟨.register id, ()⟩ ∈ before
  | .call msg | .race _ msg _ => req.method = .post ∧ Lacks EndpointEffect.Dispatches before ∧
      ∃ principal, Cleared c req before principal ∧ Marked c req before principal msg
  | .terminate sid => req.method = .delete ∧ c.sessionTerminator = true ∧
      sessionHeader req.headers = some sid ∧ ∃ principal, Cleared c req before principal
  | .respond answer => Answers c req before answer

/-! ## More behind it -/

section

variable {c : HttpConfig} {req : HttpRequest} {before more : Did} {principal : Option Value}
  {kind : EndpointEffect → Prop}

theorem lacks_nil : Lacks kind [] := by
  intro x hx
  cases hx

theorem lacks_append : Lacks kind (before ++ more) ↔ Lacks kind before ∧ Lacks kind more := by
  unfold Lacks
  constructor
  · intro h
    exact ⟨fun x hx => h x (List.mem_append_left _ hx),
      fun x hx => h x (List.mem_append_right _ hx)⟩
  · rintro ⟨hbefore, hmore⟩ x hx
    rcases List.mem_append.mp hx with hx | hx
    · exact hbefore x hx
    · exact hmore x hx

theorem lacks_singleton {x : Σ e : EndpointEffect, e.Reply} : Lacks kind [x] ↔ ¬ kind x.1 := by
  simp [Lacks]

theorem Lacks.concat {x : Σ e : EndpointEffect, e.Reply} (h : Lacks kind before)
    (hx : ¬ kind x.1) : Lacks kind (before ++ [x]) :=
  lacks_append.mpr ⟨h, lacks_singleton.mpr hx⟩

theorem Lacks.mono {kind' : EndpointEffect → Prop} (h : Lacks kind before)
    (himp : ∀ e, kind' e → kind e) : Lacks kind' before :=
  fun x hx hkind => h x hx (himp _ hkind)

theorem Lacks.notMem {e : EndpointEffect} (h : Lacks kind before) (he : kind e) (r : e.Reply) :
    (⟨e, r⟩ : Σ e : EndpointEffect, e.Reply) ∉ before :=
  fun hmem => h _ hmem he

theorem serves_of_dispatches (e : EndpointEffect) (h : e.Dispatches) : e.Serves := by
  cases e with
  | call | race => trivial
  | _ => exact absurd h id

theorem serves_of_registers (e : EndpointEffect) (h : e.Registers) : e.Serves := by
  cases e with
  | register | unregister => trivial
  | _ => exact absurd h id

theorem Identified.grow (h : Identified c req before principal) (more : Did) :
    Identified c req (before ++ more) principal := by
  unfold Identified at h ⊢
  split at h
  · rename_i hauth
    obtain ⟨v, hv, hmem⟩ := h
    rw [if_pos hauth]
    exact ⟨v, hv, List.mem_append_left _ hmem⟩
  · rename_i hauth
    rw [if_neg hauth]
    exact h

theorem Cleared.grow (h : Cleared c req before principal) (more : Did) :
    Cleared c req (before ++ more) principal :=
  ⟨h.entered, h.identified.grow more, fun hlimiter =>
    List.mem_append_left _ (h.admitted hlimiter)⟩

end

/-! ## Clearance -/

section

variable {c : HttpConfig} {req : HttpRequest} {before : Did} {principal : Option Value}

theorem follows_ask {π : Protocol EndpointEffect EndpointEffect.Reply Did} {α : Type}
    {e : EndpointEffect} {f : e.Reply → Handling α} {Q : Did → α → Prop} :
    Program.Follows π before (ask e >>= f) Q ↔
      π.allows before e ∧ ∀ r, Program.Follows π (π.after before e r) (f r) Q := Iff.rfl

/-- The rule for one request. -/
abbrev rule (c : HttpConfig) (req : HttpRequest) :
    Protocol EndpointEffect EndpointEffect.Reply Did := Program.tracing (Allowed c req)

theorem follows_enforceAuth (hentered : Entered c req) :
    Program.Follows (rule c req) [] (enforceAuth c req.headers) fun before result =>
      Lacks EndpointEffect.Serves before ∧ Lacks EndpointEffect.Charges before ∧
        ∀ principal, result = .ok principal → Identified c req before principal := by
  unfold enforceAuth
  split
  · rename_i hauth
    refine follows_ask.mpr ⟨⟨hentered, hauth, rfl, rfl⟩, fun decision => ?_⟩
    have hquiet : ∀ kind : EndpointEffect → Prop,
        ¬ kind (.authenticate (headerText req.headers "authorization")) →
          Lacks kind [⟨.authenticate (headerText req.headers "authorization"), decision⟩] :=
      fun kind hkind => lacks_singleton.mpr hkind
    cases decision with
    | allow v =>
        refine ⟨hquiet _ id, hquiet _ id, fun principal h => ?_⟩
        obtain rfl := Except.ok.inj h
        unfold Identified
        rw [if_pos hauth]
        exact ⟨v, rfl, List.mem_singleton_self _⟩
    | challenge status wwwAuthenticate =>
        refine ⟨hquiet _ id, hquiet _ id, fun principal h => ?_⟩
        cases h
  · rename_i hauth
    refine ⟨lacks_nil, lacks_nil, fun principal h => ?_⟩
    obtain rfl := Except.ok.inj h
    unfold Identified
    rw [if_neg hauth]

/-- The limiter charges the request's own bucket, once. -/
theorem follows_governorCheck (hentered : Entered c req) (hlimiter : c.rateLimiter = true)
    (hidentified : Identified c req before principal)
    (hserves : Lacks EndpointEffect.Serves before)
    (hcharges : Lacks EndpointEffect.Charges before) :
    Program.Follows (rule c req) before (governorCheck (bucketOf c req principal))
      fun before' verdict => Lacks EndpointEffect.Serves before' ∧
        Identified c req before' principal ∧
        ⟨.checkKey (bucketOf c req principal), verdict⟩ ∈ before' := by
  -- the charge itself, whatever the limiter has done before
  have hcheck : ∀ before' : Did, Lacks EndpointEffect.Serves before' →
      Lacks EndpointEffect.Charges before' → Identified c req before' principal →
      Program.Follows (rule c req) before' (ask (.checkKey (bucketOf c req principal)))
        fun before'' verdict => Lacks EndpointEffect.Serves before'' ∧
          Identified c req before'' principal ∧
          ⟨.checkKey (bucketOf c req principal), verdict⟩ ∈ before'' := by
    intro before' hserves hcharges hidentified
    refine ⟨⟨hentered, hlimiter, hcharges, principal, hidentified, rfl⟩, fun verdict => ?_⟩
    exact ⟨hserves.concat id, hidentified.grow _,
      List.mem_append_right _ (List.mem_singleton_self _)⟩
  unfold governorCheck
  refine follows_ask.mpr ⟨⟨hentered, hlimiter, principal, hidentified⟩, fun checks => ?_⟩
  split
  · refine follows_ask.mpr
      ⟨⟨hentered, hlimiter, principal, hidentified.grow _⟩, fun _ => ?_⟩
    exact hcheck _ ((hserves.concat id).concat id) ((hcharges.concat id).concat id)
      ((hidentified.grow _).grow _)
  · exact hcheck _ (hserves.concat id) (hcharges.concat id) (hidentified.grow _)

theorem follows_enforceRateLimit (hentered : Entered c req)
    (hidentified : Identified c req before principal)
    (hserves : Lacks EndpointEffect.Serves before)
    (hcharges : Lacks EndpointEffect.Charges before) :
    Program.Follows (rule c req) before
      (enforceRateLimit c (subjectOf principal) (clientIp c req)) fun before' refusal =>
        Lacks EndpointEffect.Serves before' ∧ Identified c req before' principal ∧
          (refusal = none → Admitted c req before' principal) := by
  unfold enforceRateLimit
  split
  · rename_i hlimiter
    refine (follows_governorCheck hentered hlimiter hidentified hserves hcharges).seq ?_
    rintro before' verdict ⟨hserves', hidentified', hmem⟩
    cases verdict with
    | none => exact ⟨hserves', hidentified', fun _ _ => hmem⟩
    | some retryAfter => exact ⟨hserves', hidentified', fun h => by cases h⟩
  · rename_i hlimiter
    exact ⟨hserves, hidentified, fun _ h => absurd h hlimiter⟩

/-- **Clearance**: whoever is cleared is identified and charged, and has done nothing
else; nobody else has done anything either. -/
theorem follows_clear (hentered : Entered c req) :
    Program.Follows (rule c req) [] (clear c req) fun before result =>
      Lacks EndpointEffect.Serves before ∧
        ∀ principal, result = .ok principal → Cleared c req before principal := by
  unfold clear
  refine (follows_enforceAuth hentered).seq ?_
  rintro before result ⟨hserves, hcharges, hidentified⟩
  cases result with
  | error refusal => exact ⟨hserves, fun principal h => by cases h⟩
  | ok principal =>
      refine (follows_enforceRateLimit hentered (hidentified principal rfl) hserves hcharges).seq ?_
      rintro before' refusal ⟨hserves', hidentified', hadmitted⟩
      cases refusal with
      | some refusal => exact ⟨hserves', fun principal h => by cases h⟩
      | none =>
          refine ⟨hserves', fun principal' h => ?_⟩
          obtain rfl := Except.ok.inj h
          exact ⟨hentered, hidentified', hadmitted rfl⟩

/-! ## The body -/

theorem isInitialize_mapParams (msg : JsonRpcMessage) (f : Option Value → Option Value) :
    isInitialize (msg.mapParams f) = isInitialize msg := by cases msg <;> rfl

theorem opensStream_mapParams (msg : JsonRpcMessage) (f : Option Value → Option Value) :
    opensStream (msg.mapParams f) = opensStream msg := by cases msg <;> rfl

theorem isInitialize_marks (principal : Option Value) (msg : JsonRpcMessage) :
    isInitialize (assertPrincipal principal (Meta.sanitizeInbound msg)) = isInitialize msg := by
  unfold Meta.sanitizeInbound
  cases principal with
  | none => exact isInitialize_mapParams _ _
  | some v => exact (isInitialize_mapParams _ _).trans (isInitialize_mapParams _ _)

theorem opensStream_marks (principal : Option Value) (msg : JsonRpcMessage) :
    opensStream (assertPrincipal principal (Meta.sanitizeInbound msg)) = opensStream msg := by
  unfold Meta.sanitizeInbound
  cases principal with
  | none => exact opensStream_mapParams _ _
  | some v => exact (opensStream_mapParams _ _).trans (opensStream_mapParams _ _)

/-- The message as the dual-stack routing leaves it, on its way to a dispatch. -/
structure Routed (c : HttpConfig) (req : HttpRequest) (before : Did) (principal : Option Value)
    (sent msg : JsonRpcMessage) : Prop where
  decoded : c.decode req.body = .ok sent
  initializes : isInitialize msg = isInitialize sent
  opens : opensStream msg = opensStream sent
  marked : ∃ minted, (isInitialize sent = true → ⟨.mint, minted⟩ ∈ before) ∧
    ∀ stream, (facts req principal minted stream).accept sent =
      some (assertConnection (facts req principal minted stream) msg)

theorem Routed.grow {sent msg : JsonRpcMessage} (h : Routed c req before principal sent msg)
    (more : Did) : Routed c req (before ++ more) principal sent msg := by
  obtain ⟨minted, hminted, haccept⟩ := h.marked
  exact ⟨h.decoded, h.initializes, h.opens, minted,
    fun hinit => List.mem_append_left _ (hminted hinit), haccept⟩

/-- With a channel of its own. -/
theorem Routed.onStream {sent msg : JsonRpcMessage} (h : Routed c req before principal sent msg)
    (hopens : opensStream msg = true) {stream : String}
    (hstream : ⟨.register stream, ()⟩ ∈ before) :
    Marked c req before principal (assertConnectionId stream msg) := by
  obtain ⟨minted, hminted, haccept⟩ := h.marked
  refine ⟨sent, minted, stream, h.decoded, ?_, hminted, fun _ => hstream⟩
  rw [haccept stream]
  unfold assertConnection
  rw [if_pos hopens]
  rfl

/-- Without one. -/
theorem Routed.plainly {sent msg : JsonRpcMessage} (h : Routed c req before principal sent msg)
    (hopens : opensStream msg = false) : Marked c req before principal msg := by
  obtain ⟨minted, hminted, haccept⟩ := h.marked
  refine ⟨sent, minted, "", h.decoded, ?_, hminted, fun hsent => ?_⟩
  · rw [haccept ""]
    unfold assertConnection
    rw [hopens]
    rfl
  · rw [← h.opens, hopens] at hsent
    cases hsent

/-- What a request knows as it comes to be dispatched. -/
structure AtService (c : HttpConfig) (req : HttpRequest) (before : Did)
    (principal : Option Value) (sent msg : JsonRpcMessage) : Prop where
  posts : req.method = .post
  cleared : Cleared c req before principal
  undispatched : Lacks EndpointEffect.Dispatches before
  unregistered : Lacks EndpointEffect.Registers before
  routed : Routed c req before principal sent msg

variable {sent msg : JsonRpcMessage} {minted : Option String} {methodNotFound404 : Bool}

/-- An answer without a writer left behind. -/
theorem answers_served (hpost : req.method = .post)
    (hcleared : Cleared c req before principal)
    (hunregistered : Lacks EndpointEffect.Registers before) (more : Did)
    (hmore : ∀ id, ⟨.register id, ()⟩ ∈ more → ⟨.unregister id, ()⟩ ∈ more ∨
      ∃ msg found reply, ⟨.race id msg found, reply⟩ ∈ more)
    (response : RequestPost.Response) (session : Option HeaderValue) :
    Answers c req (before ++ more) (.served response session) := by
  refine ⟨hpost, ⟨principal, hcleared.grow more⟩, fun id hid => ?_⟩
  rcases List.mem_append.mp hid with hid | hid
  · exact absurd hid (hunregistered.notMem (e := .register id) trivial ())
  · rcases hmore id hid with hgone | ⟨msg, found, reply, hrace⟩
    · exact .inl (List.mem_append_right _ hgone)
    · exact .inr ⟨msg, found, reply, List.mem_append_right _ hrace⟩

theorem follows_plainPost (h : AtService c req before principal sent msg)
    (hopens : opensStream msg = false) :
    Program.Follows (rule c req) before (plainPost c msg minted) (Answers c req) := by
  have hserved := answers_served h.posts h.cleared h.unregistered
  unfold plainPost
  refine follows_ask.mpr ⟨⟨h.posts, principal, h.cleared⟩, fun ready => ?_⟩
  cases ready with
  | some e => exact hserved _ (by simp) _ _
  | none =>
      refine follows_ask.mpr ⟨⟨h.posts, h.undispatched.concat id, principal, h.cleared.grow _,
        (h.routed.grow _).plainly hopens⟩, fun result => ?_⟩
      have hdone := hserved [⟨.pollReady, none⟩, ⟨.call msg, result⟩] (by simp)
      simp only [Program.tracing, List.append_assoc, List.cons_append, List.nil_append]
      rcases result with e | reply | reply
      · exact hdone _ _
      · exact hdone _ _
      · exact hdone _ _

theorem follows_requestPost (h : AtService c req before principal sent msg)
    (hopens : opensStream msg = true) :
    Program.Follows (rule c req) before (requestPost msg methodNotFound404) (Answers c req) := by
  have hserved := answers_served h.posts h.cleared h.unregistered
  unfold requestPost
  refine follows_ask.mpr ⟨⟨h.posts, principal, h.cleared⟩, fun uuid => ?_⟩
  refine follows_ask.mpr ⟨⟨⟨principal, h.cleared.grow _⟩, .inr ⟨h.posts, uuid, ?_, .inr rfl⟩⟩,
    fun _ => ?_⟩
  · exact List.mem_append_right _ (List.mem_singleton_self _)
  refine follows_ask.mpr ⟨⟨h.posts, principal, (h.cleared.grow _).grow _⟩, fun ready => ?_⟩
  cases ready with
  | some e =>
      refine follows_ask.mpr ⟨?_, fun _ => ?_⟩
      · show _ ∈ _
        simp [Program.tracing]
      · simp only [Program.tracing, List.append_assoc, List.cons_append, List.nil_append]
        exact hserved _ (by simp) _ _
  | none =>
      refine follows_ask.mpr ⟨⟨h.posts, ?_, principal, ?_, ?_⟩, fun response => ?_⟩
      · exact ((h.undispatched.concat id).concat id).concat id
      · exact ((h.cleared.grow _).grow _).grow _
      · refine (((h.routed.grow _).grow _).grow _).onStream hopens ?_
        simp
      · simp only [Program.tracing, List.append_assoc, List.cons_append, List.nil_append]
        refine hserved _ ?_ _ _
        intro id hid
        refine .inr ⟨assertConnectionId ("http-post-" ++ uuid) msg, methodNotFound404, response, ?_⟩
        obtain rfl : id = "http-post-" ++ uuid := by simpa using hid
        simp

theorem follows_listenSse (h : AtService c req before principal sent msg)
    (hopens : opensStream msg = true) :
    Program.Follows (rule c req) before (listenSse c msg) (Answers c req) := by
  have hserved := answers_served h.posts h.cleared h.unregistered
  unfold listenSse
  refine follows_ask.mpr ⟨⟨h.posts, principal, h.cleared⟩, fun uuid => ?_⟩
  refine follows_ask.mpr ⟨⟨⟨principal, h.cleared.grow _⟩, .inr ⟨h.posts, uuid, ?_, .inl rfl⟩⟩,
    fun _ => ?_⟩
  · exact List.mem_append_right _ (List.mem_singleton_self _)
  refine follows_ask.mpr ⟨⟨h.posts, principal, (h.cleared.grow _).grow _⟩, fun ready => ?_⟩
  cases ready with
  | some e =>
      refine follows_ask.mpr ⟨?_, fun _ => ?_⟩
      · show _ ∈ _
        simp [Program.tracing]
      · simp only [Program.tracing, List.append_assoc, List.cons_append, List.nil_append]
        exact hserved _ (by simp) _ _
  | none =>
      refine follows_ask.mpr ⟨⟨h.posts, ?_, principal, ?_, ?_⟩, fun result => ?_⟩
      · exact ((h.undispatched.concat id).concat id).concat id
      · exact ((h.cleared.grow _).grow _).grow _
      · refine (((h.routed.grow _).grow _).grow _).onStream hopens ?_
        simp
      · -- only an accepted listen keeps its writer
        rcases result with e | reply | reply
        · refine follows_ask.mpr ⟨?_, fun _ => ?_⟩
          · show _ ∈ _
            simp [Program.tracing]
          · simp only [Program.tracing, List.append_assoc, List.cons_append, List.nil_append]
            exact hserved _ (by simp) _ _
        · refine ⟨⟨principal, (((h.cleared.grow _).grow _).grow _).grow _⟩, ?_, ?_⟩
          · simp [Program.tracing]
          · have hnone := h.unregistered.notMem (e := .unregister ("http-sse-" ++ uuid)) trivial ()
            simpa [Program.tracing] using hnone
        · refine follows_ask.mpr ⟨?_, fun _ => ?_⟩
          · show _ ∈ _
            simp [Program.tracing]
          · simp only [Program.tracing, List.append_assoc, List.cons_append, List.nil_append]
            exact hserved _ (by simp) _ _

theorem follows_dispatch (h : AtService c req before principal sent msg) :
    Program.Follows (rule c req) before (dispatch c msg minted methodNotFound404)
      (Answers c req) := by
  unfold dispatch
  split
  · rename_i hlisten
    exact follows_listenSse h (by simp [opensStream, hlisten])
  · rename_i hlisten
    split
    · rename_i hrequest
      refine follows_requestPost h ?_
      cases msg <;> simp_all [opensStream, isRequest]
    · rename_i hrequest
      refine follows_plainPost h ?_
      cases msg <;> simp_all [opensStream, isRequest]

/-! ## The handlers -/

/-- What a request knows once it is cleared. -/
structure AtBody (c : HttpConfig) (req : HttpRequest) (before : Did) (principal : Option Value)
    (sent : JsonRpcMessage) : Prop where
  posts : req.method = .post
  cleared : Cleared c req before principal
  quiet : Lacks EndpointEffect.Serves before
  decoded : c.decode req.body = .ok sent

theorem AtBody.atService (h : AtBody c req before principal sent) (more : Did)
    (hmore : ∀ x ∈ more, ∃ uuid, x = ⟨.mint, uuid⟩)
    (hrouted : Routed c req (before ++ more) principal sent msg) :
    AtService c req (before ++ more) principal sent msg where
  posts := h.posts
  cleared := h.cleared.grow more
  undispatched := by
    refine lacks_append.mpr ⟨h.quiet.mono serves_of_dispatches, fun x hx => ?_⟩
    obtain ⟨uuid, rfl⟩ := hmore x hx
    exact id
  unregistered := by
    refine lacks_append.mpr ⟨h.quiet.mono serves_of_registers, fun x hx => ?_⟩
    obtain ⟨uuid, rfl⟩ := hmore x hx
    exact id
  routed := hrouted

/-- Where the checks pass, acceptance is what the routing makes of the message. -/
theorem accept_eq (post : Http.Post) {marked : JsonRpcMessage}
    (hpasses : post.passes (assertPrincipal post.principal (Meta.sanitizeInbound sent)) = true)
    (hsession : assertSession post (assertPrincipal post.principal (Meta.sanitizeInbound sent)) =
      some marked) : post.accept sent = some (assertConnection post marked) := by
  unfold Http.Post.accept
  simp only
  rw [if_pos hpasses, hsession]
  rfl

theorem assertSession_opening (post : Http.Post) {msg : JsonRpcMessage}
    (h : isInitialize msg = true) : assertSession post msg =
      some (Meta.setRequestMeta msg Meta.internal.sessionId (.string post.minted)) := by
  unfold assertSession
  rw [if_pos h]

theorem assertSession_named {post : Http.Post} {msg : JsonRpcMessage} {sid : String}
    (h : ¬ isInitialize msg = true) (hsid : post.sessionHeader = some sid) :
    assertSession post msg =
      some (Meta.setRequestMeta (stampVersion msg) Meta.internal.sessionId (.string sid)) := by
  unfold assertSession
  rw [if_neg h, hsid]

theorem assertSession_stateless {post : Http.Post} {msg : JsonRpcMessage}
    (h : ¬ isInitialize msg = true) (hsid : post.sessionHeader = none)
    (hversion : ¬ post.versionHeader = some ProtocolVersion.v2025_11_25.asStr) :
    assertSession post msg = some msg := by
  unfold assertSession
  rw [if_neg h, hsid]
  exact if_neg hversion

theorem follows_mcpBody (h : AtBody c req before principal sent) :
    Program.Follows (rule c req) before
      (mcpBody c req principal (Meta.sanitizeInbound sent)) (Answers c req) := by
  unfold mcpBody
  simp only
  split
  · exact h.quiet
  · rename_i hrecognized
    split
    · exact h.quiet
    · rename_i hvalid
      have hpasses :
          passes req.headers (assertPrincipal principal (Meta.sanitizeInbound sent)) = true := by
        unfold passes
        rw [hrecognized, hvalid]
        rfl
      have hinit := isInitialize_marks principal sent
      have hopens := opensStream_marks principal sent
      unfold route
      split
      · -- an `initialize` mints its session
        rename_i hinitialize
        refine follows_ask.mpr ⟨⟨h.posts, principal, h.cleared⟩, fun sid => ?_⟩
        refine follows_dispatch (h.atService [⟨.mint, sid⟩] ?_ ⟨h.decoded, ?_, ?_, ?_⟩)
        · intro x hx
          exact ⟨sid, List.mem_singleton.mp hx⟩
        · exact (isInitialize_mapParams _ _).trans hinit
        · exact (opensStream_mapParams _ _).trans hopens
        · refine ⟨sid, fun _ => List.mem_append_right _ (List.mem_singleton_self _), ?_⟩
          intro stream
          exact accept_eq (facts req principal sid stream) hpasses
            (assertSession_opening _ hinitialize)
      · rename_i hinitialize
        have hmint : isInitialize sent = true → False := by
          rw [← hinit]
          exact hinitialize
        have hat : ∀ msg, Routed c req before principal sent msg →
            AtService c req before principal sent msg := by
          intro msg hrouted
          rw [← List.append_nil before] at hrouted ⊢
          exact h.atService [] (by simp) hrouted
        split
        · rename_i sid hsid
          refine follows_dispatch (hat _ ⟨h.decoded, ?_, ?_, "", fun hi => (hmint hi).elim, ?_⟩)
          · refine (isInitialize_mapParams _ _).trans (Eq.trans ?_ hinit)
            unfold stampVersion
            split
            · rfl
            · exact isInitialize_mapParams _ _
          · refine (opensStream_mapParams _ _).trans (Eq.trans ?_ hopens)
            unfold stampVersion
            split
            · rfl
            · exact opensStream_mapParams _ _
          · intro stream
            exact accept_eq (facts req principal "" stream) hpasses
              (assertSession_named hinitialize hsid)
        · rename_i hsid
          split
          · exact h.quiet
          · rename_i hversion
            refine follows_dispatch
              (hat _ ⟨h.decoded, hinit, hopens, "", fun hi => (hmint hi).elim, ?_⟩)
            intro stream
            exact accept_eq (facts req principal "" stream) hpasses
              (assertSession_stateless hinitialize hsid hversion)

theorem checks_eq_none {a b : Option Refusal} (h : a.or b = none) : a = none ∧ b = none := by
  cases a with
  | none => exact ⟨rfl, h⟩
  | some refusal => cases h

theorem follows_mcpPost (hmethod : req.method = .post) :
    Program.Follows (rule c req) [] (mcpPost c req) (Answers c req) := by
  unfold mcpPost
  split
  · exact lacks_nil
  · rename_i hchecks
    obtain ⟨horigin, hhost⟩ := checks_eq_none hchecks
    split
    · exact lacks_nil
    · rename_i haccepts
      split
      · exact lacks_nil
      · rename_i sent hdecode
        have hentered : Entered c req := by
          refine ⟨horigin, hhost, ?_⟩
          unfold Acceptable
          rw [hmethod]
          simp only [Bool.not_eq_true', Bool.not_eq_false, Bool.and_eq_true] at haccepts
          exact ⟨haccepts.1, haccepts.2, sent, hdecode⟩
        refine (follows_clear hentered).seq ?_
        rintro before result ⟨hquiet, hcleared⟩
        cases result with
        | error refusal => exact hquiet
        | ok principal =>
            exact follows_mcpBody ⟨hmethod, hcleared principal rfl, hquiet, hdecode⟩

theorem follows_mcpGet (hmethod : req.method = .get) :
    Program.Follows (rule c req) [] (mcpGet c req) (Answers c req) := by
  unfold mcpGet
  split
  · exact lacks_nil
  · rename_i hchecks
    obtain ⟨horigin, hhost⟩ := checks_eq_none hchecks
    split
    · exact lacks_nil
    · rename_i haccepts
      have hentered : Entered c req := by
        refine ⟨horigin, hhost, ?_⟩
        unfold Acceptable
        rw [hmethod]
        simpa using haccepts
      refine (follows_clear hentered).seq ?_
      rintro before result ⟨hquiet, hcleared⟩
      cases result with
      | error refusal => exact hquiet
      | ok principal =>
          have hcleared := hcleared principal rfl
          simp only
          unfold openStream
          split
          · exact hquiet
          · rename_i sid hsid
            refine follows_ask.mpr ⟨⟨⟨principal, hcleared⟩, .inl ⟨hmethod, ?_⟩⟩, fun _ => ?_⟩
            · rw [hsid]
              rfl
            · refine ⟨⟨principal, hcleared.grow _⟩, ?_, ?_⟩
              · exact List.mem_append_right _ (List.mem_singleton_self _)
              · have hnone := (hquiet.mono serves_of_registers).notMem
                  (e := .unregister (Outbound.sessionStreamId sid)) trivial ()
                simpa [Program.tracing] using hnone

theorem follows_mcpDelete (hmethod : req.method = .delete) :
    Program.Follows (rule c req) [] (mcpDelete c req) (Answers c req) := by
  unfold mcpDelete
  split
  · exact lacks_nil
  · rename_i hchecks
    obtain ⟨horigin, hhost⟩ := checks_eq_none hchecks
    have hentered : Entered c req := by
      refine ⟨horigin, hhost, ?_⟩
      unfold Acceptable
      rw [hmethod]
      trivial
    refine (follows_clear hentered).seq ?_
    rintro before result ⟨hquiet, hcleared⟩
    cases result with
    | error refusal => exact hquiet
    | ok principal =>
        simp only
        unfold endSession
        split
        · exact hquiet
        · rename_i hterminator
          split
          · exact hquiet
          · rename_i sid hsid
            refine follows_ask.mpr ⟨⟨hmethod, by simpa using hterminator, hsid, principal,
              hcleared principal rfl⟩, fun existed => ?_⟩
            exact ⟨sid, List.mem_append_right _ (List.mem_singleton_self _)⟩

theorem follows_exchange (c : HttpConfig) (req : HttpRequest) :
    Program.Follows (rule c req) [] (exchange c req) fun _ _ => True := by
  have hhandler : Program.Follows (rule c req) [] (handler c req) (Answers c req) := by
    unfold handler
    split
    · exact follows_mcpPost ‹_›
    · exact follows_mcpGet ‹_›
    · exact follows_mcpDelete ‹_›
  exact hhandler.seq fun before answer hanswers => ⟨hanswers, fun _ => trivial⟩

end

/-! ## Every run -/

/-- The endpoint in surroundings that answer as they like. -/
def endpoint {S C : Type} (c : HttpConfig)
    (exec : Nat → C → S → (e : EndpointEffect) → Outcome S e.Reply) :
    Machine S EndpointEffect EndpointEffect.Reply HttpRequest C where
  start := exchange c
  exec

/-- **Nothing passes the guards unchecked**: in every run, with requests interleaved in any
way and whatever the surroundings answer, each effect a request has had was allowed by what
that same request had behind it. -/
theorem guarded {S C : Type} (c : HttpConfig)
    (exec : Nat → C → S → (e : EndpointEffect) → Outcome S e.Reply) {s : S}
    {tr : List (Act HttpRequest C × Pool (S × List (Logged EndpointEffect EndpointEffect.Reply C))
      EndpointEffect EndpointEffect.Reply HttpRequest)}
    (hrun : Run (endpoint c exec).logged.Step (Pool.init (s, [])) tr) :
    ∀ P ∈ states (Pool.init (s, [])) tr, ∀ n req, P.born[n]? = some req →
      Program.Obeys (Allowed c req) (Logged.own n P.shared.2) :=
  Machine.obeys_of_run (fun req => follows_exchange c req) hrun

/-! ## A request that passes -/

def localAddress (n : UInt8) : IpAddr := .v4 ⟨[127, 0, 0, n], rfl⟩

def sampleConfig : HttpConfig where
  origins := .any
  hosts := .any
  authenticator := true
  rateLimiter := true
  sessionTerminator := true
  trustedProxies := []
  parseMime _ := none
  decode _ := .error ""
  encode _ := .ok []

/-- The end of the session `s`. -/
def sampleRequest (n : UInt8) : HttpRequest where
  method := .delete
  connectInfo := some (localAddress n)
  headers := [(headerNames.sessionId, .ofAscii "s"), ("authorization", .ofAscii "Bearer t")]
  body := []

/-- Everyone is allowed and admitted. -/
def generous : (e : EndpointEffect) → e.Reply
  | .authenticate _ => .allow (.object [("sub", .string "alice")])
  | .countCheck => 1
  | .retainRecent => ()
  | .checkKey _ => none
  | .mint => ""
  | .register _ => ()
  | .unregister _ => ()
  | .pollReady => none
  | .call _ => .ok none
  | .race _ _ _ => .plain 202 .empty
  | .terminate _ => true
  | .respond _ => ()

/-- Each answer is the choice of the moment. -/
def answering (_thread : Nat) (choice : (e : EndpointEffect) → e.Reply) (_s : Unit)
    (e : EndpointEffect) : Outcome Unit e.Reply := .answer (choice e) ()

abbrev AnsweringPool := Pool (Unit × List (Logged EndpointEffect EndpointEffect.Reply
  ((e : EndpointEffect) → e.Reply))) EndpointEffect EndpointEffect.Reply HttpRequest

def passingStart : AnsweringPool := Pool.init ((), [])

def passingActs : List (Act HttpRequest ((e : EndpointEffect) → e.Reply)) :=
  .spawn (sampleRequest 1) :: List.replicate 5 (.run 0 generous)

def passing : List (Act HttpRequest ((e : EndpointEffect) → e.Reply) × AnsweringPool) :=
  trace (endpoint sampleConfig answering).logged.act passingStart passingActs

/-- Authentication, the two steps of the limiter, the termination and its answer. -/
theorem guarded_passing :
    (Logged.own 0 (final passingStart passing).shared.2).length = 5 ∧
      Program.Obeys (Allowed sampleConfig (sampleRequest 1))
        (Logged.own 0 (final passingStart passing).shared.2) := by
  have hchecked : checked (endpoint sampleConfig answering).logged.act
      (fun P a => ((endpoint sampleConfig answering).logged.step P a).isSome)
      passingStart passingActs = true := by
    decide +kernel
  have hrun := run_trace_of_checked (fun P a h => Machine.step_act h) hchecked
  exact ⟨by decide +kernel,
    guarded sampleConfig answering hrun _ (final_mem_states _ _) 0 (sampleRequest 1) rfl⟩

end TurboMcp.Transport.HttpEndpoint
