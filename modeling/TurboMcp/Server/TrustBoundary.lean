import TurboMcp.Server.Asserted
import TurboMcp.Server.OneResponse
import TurboMcp.Transport.Http

/-!
# The trust boundary

Whatever a client puts into a frame, no handler sees another principal than the
transport's, and a frame's internal entries change nothing.  The ids are asserted
in `_meta`, so a frame whose `params` or `_meta` is not an object cannot carry
them: it is dispatched without a session and without a connection.
-/

namespace TurboMcp.Server

open TurboMcp.Core TurboMcp.Lib TurboMcp.Service TurboMcp.Transport

/-! ## Facts and frames -/

/-- What a transport asserts about a frame. -/
structure Facts where
  principal : Option Value
  session : Option String
  connection : Option String

/-- Requests and notifications whose `params` and `_meta` are absent or
objects. -/
def hasRoom : JsonRpcMessage → Bool
  | .response _ => false
  | msg => Meta.stampable msg.params

def Facts.asserted (f : Facts) : Asserted :=
  { identity := match f.principal with
      | none => .anonymous
      | some principal => Meta.principalIdentity principal
    session := f.session
    connection := f.connection }

/-- The facts as the dispatcher gets them from a frame. -/
def Facts.seenIn (f : Facts) (msg : JsonRpcMessage) : Asserted :=
  if hasRoom msg then f.asserted else { f.asserted with session := none, connection := none }

/-- The message's internal entries are exactly `f`. -/
structure Stamped (f : Facts) (msg : JsonRpcMessage) : Prop where
  principal : hasRoom msg = true → Meta.entry Meta.internal.identity msg.params = f.principal
  session : hasRoom msg = true →
    Meta.entry Meta.internal.sessionId msg.params = f.session.map .string
  connection : hasRoom msg = true →
    Meta.entry Meta.internal.connectionId msg.params = f.connection.map .string

theorem hasRoom_mapParams {g : Option Value → Option Value}
    (hg : ∀ params, Meta.stampable (g params) = Meta.stampable params) (msg : JsonRpcMessage) :
    hasRoom (msg.mapParams g) = hasRoom msg := by
  cases msg with
  | request r => exact hg r.params
  | notification n => exact hg n.params
  | response r => rfl

@[simp] theorem hasRoom_setRequestMeta (msg : JsonRpcMessage) (key : String) (value : Value) :
    hasRoom (Meta.setRequestMeta msg key value) = hasRoom msg :=
  hasRoom_mapParams (Meta.stampable_setMeta key value) msg

@[simp] theorem hasRoom_sanitizeInbound (msg : JsonRpcMessage) :
    hasRoom (Meta.sanitizeInbound msg) = hasRoom msg :=
  hasRoom_mapParams (Meta.stampable_retainMeta _) msg

theorem entry_setRequestMeta_self {msg : JsonRpcMessage} (h : hasRoom msg = true)
    (key : String) (value : Value) :
    Meta.entry key (Meta.setRequestMeta msg key value).params = some value := by
  cases msg with
  | request r => exact Meta.entry_setMeta_self key value h
  | notification n => exact Meta.entry_setMeta_self key value h
  | response r => cases h

theorem entry_setRequestMeta_of_ne {key key' : String} (hne : key' ≠ key)
    (msg : JsonRpcMessage) (value : Value) :
    Meta.entry key' (Meta.setRequestMeta msg key value).params = Meta.entry key' msg.params := by
  cases msg with
  | request r => exact Meta.entry_setMeta_of_ne hne value r.params
  | notification n => exact Meta.entry_setMeta_of_ne hne value n.params
  | response r => rfl

theorem entry_sanitizeInbound (key : String) (msg : JsonRpcMessage) :
    Meta.entry key (Meta.sanitizeInbound msg).params =
      if Meta.internal.isInternalKey key then none else Meta.entry key msg.params := by
  have h (params : Option Value) := Meta.entry_retainMeta
    (fun key => !Meta.internal.isInternalKey key) key params
  cases msg with
  | request r =>
      refine (h r.params).trans ?_
      cases Meta.internal.isInternalKey key <;> rfl
  | notification n =>
      refine (h n.params).trans ?_
      cases Meta.internal.isInternalKey key <;> rfl
  | response r => cases Meta.internal.isInternalKey key <;> rfl

theorem entry_of_no_room {msg : JsonRpcMessage} (h : hasRoom msg = false) (key : String) :
    Meta.entry key msg.params = none := by
  cases msg with
  | request r => exact Meta.entry_of_not_stampable h key
  | notification n => exact Meta.entry_of_not_stampable h key
  | response r => rfl

/-- **Reading the stamps back**: a message stamped with `f` carries what `f`
asserts, or no ids where it has no room. -/
theorem Stamped.carries {f : Facts} {msg : JsonRpcMessage} (h : Stamped f msg) :
    Carries (f.seenIn msg) msg.params := by
  cases hroom : hasRoom msg with
  | false =>
      have hnone := entry_of_no_room hroom
      simp only [Facts.seenIn, hroom, Bool.false_eq_true, if_false]
      refine ⟨?_, ?_, fun m hm => ?_⟩
      · exact congrArg (·.bind Value.asStr) (hnone Meta.internal.sessionId)
      · exact congrArg (·.bind Value.asStr) (hnone Meta.internal.connectionId)
      · cases msg with
        | request r => simp [Meta.metaObject_of_not_stampable hroom] at hm
        | notification n => simp [Meta.metaObject_of_not_stampable hroom] at hm
        | response r => cases hm
  | true =>
      simp only [Facts.seenIn, hroom, if_true]
      have asString (o : Option String) : (o.map Value.string).bind Value.asStr = o := by
        cases o <;> rfl
      refine ⟨?_, ?_, fun m hm => ?_⟩
      · exact (congrArg (·.bind Value.asStr) (h.session hroom)).trans (asString _)
      · exact (congrArg (·.bind Value.asStr) (h.connection hroom)).trans (asString _)
      · have hprincipal := h.principal hroom
        simp only [Meta.entry, hm, Option.bind_some] at hprincipal
        cases hf : f.principal with
        | none => simp [Meta.extractIdentity, Facts.asserted, hprincipal, hf]
        | some p => simp [Meta.extractIdentity, Facts.asserted, hprincipal, hf]

/-! ## Stamping -/

theorem stamped_sanitizeInbound (msg : JsonRpcMessage) :
    Stamped ⟨none, none, none⟩ (Meta.sanitizeInbound msg) := by
  refine ⟨fun _ => ?_, fun _ => ?_, fun _ => ?_⟩ <;>
    exact (entry_sanitizeInbound _ msg).trans (if_pos (by decide))

theorem Stamped.assertPrincipal {f : Facts} {msg : JsonRpcMessage} (h : Stamped f msg)
    (principal : Value) :
    Stamped { f with principal := some principal }
      (Meta.setRequestMeta msg Meta.internal.identity principal) where
  principal := fun hroom => entry_setRequestMeta_self (by simpa using hroom) _ _
  session := fun hroom => by
    rw [entry_setRequestMeta_of_ne (by decide)]
    exact h.session (by simpa using hroom)
  connection := fun hroom => by
    rw [entry_setRequestMeta_of_ne (by decide)]
    exact h.connection (by simpa using hroom)

theorem Stamped.assertSession {f : Facts} {msg : JsonRpcMessage} (h : Stamped f msg)
    (sid : String) :
    Stamped { f with session := some sid }
      (Meta.setRequestMeta msg Meta.internal.sessionId (.string sid)) where
  principal := fun hroom => by
    rw [entry_setRequestMeta_of_ne (by decide)]
    exact h.principal (by simpa using hroom)
  session := fun hroom => entry_setRequestMeta_self (by simpa using hroom) _ _
  connection := fun hroom => by
    rw [entry_setRequestMeta_of_ne (by decide)]
    exact h.connection (by simpa using hroom)

theorem Stamped.assertConnection {f : Facts} {msg : JsonRpcMessage} (h : Stamped f msg)
    (conn : String) :
    Stamped { f with connection := some conn }
      (Meta.setRequestMeta msg Meta.internal.connectionId (.string conn)) where
  principal := fun hroom => by
    rw [entry_setRequestMeta_of_ne (by decide)]
    exact h.principal (by simpa using hroom)
  session := fun hroom => by
    rw [entry_setRequestMeta_of_ne (by decide)]
    exact h.session (by simpa using hroom)
  connection := fun hroom => entry_setRequestMeta_self (by simpa using hroom) _ _

/-- The negotiated version is no internal entry. -/
theorem Stamped.version {f : Facts} {msg : JsonRpcMessage} (h : Stamped f msg) (v : Value) :
    Stamped f (Meta.setRequestMeta msg Meta.keys.protocolVersion v) where
  principal := fun hroom => by
    rw [entry_setRequestMeta_of_ne (by decide)]
    exact h.principal (by simpa using hroom)
  session := fun hroom => by
    rw [entry_setRequestMeta_of_ne (by decide)]
    exact h.session (by simpa using hroom)
  connection := fun hroom => by
    rw [entry_setRequestMeta_of_ne (by decide)]
    exact h.connection (by simpa using hroom)

theorem stamped_stampInbound (conn : String) (config : ServeConfig) (msg : JsonRpcMessage) :
    Stamped ⟨config.identity, none, some conn⟩ (stampInbound conn config msg) := by
  have h := (stamped_sanitizeInbound msg).assertConnection conn
  unfold stampInbound
  cases config.identity with
  | none => exact h
  | some principal => exact h.assertPrincipal principal

theorem isInitialize_stampInbound (conn : String) (config : ServeConfig)
    (msg : JsonRpcMessage) :
    LegacySessionAdapter.isInitialize (stampInbound conn config msg) =
      LegacySessionAdapter.isInitialize msg := by
  unfold stampInbound
  cases msg <;> cases config.identity <;> rfl

theorem version_stampInbound (conn : String) (config : ServeConfig) (msg : JsonRpcMessage) :
    Meta.requestProtocolVersion (stampInbound conn config msg).params =
      Meta.requestProtocolVersion msg.params := by
  have h : Meta.entry Meta.keys.protocolVersion (stampInbound conn config msg).params =
      Meta.entry Meta.keys.protocolVersion msg.params := by
    have hsanitized := (entry_sanitizeInbound Meta.keys.protocolVersion msg).trans
      (if_neg (by decide))
    unfold stampInbound
    cases config.identity with
    | none => exact (entry_setRequestMeta_of_ne (by decide) _ _).trans hsanitized
    | some principal =>
        exact (entry_setRequestMeta_of_ne (by decide) _ _).trans
          ((entry_setRequestMeta_of_ne (by decide) _ _).trans hsanitized)
  rw [Meta.requestProtocolVersion_eq, Meta.requestProtocolVersion_eq, h]

/-! ## Endpoints -/

/-- The ways a frame reaches the dispatcher: off a byte pipe, bare or through
the session adapter (which minted `candidate` and holds `session`), or in an
HTTP POST. -/
inductive Endpoint
  | pipe (connection : String) (config : ServeConfig)
  | adapted (connection : String) (config : ServeConfig) (candidate : String)
      (session : Option String)
  | http (post : Http.Post)

/-- The frame handed to the dispatcher, as `serve_with`, the adapter's `call`
and `mcp_post` compute it. -/
def Endpoint.accept : Endpoint → JsonRpcMessage → Option JsonRpcMessage
  | .pipe conn config, msg => some (stampInbound conn config msg)
  | .adapted conn config candidate session, msg =>
      let msg := stampInbound conn config msg
      if LegacySessionAdapter.isInitialize msg then
        some (LegacySessionAdapter.attachSession candidate msg)
      else some (LegacySessionAdapter.stampSession session msg)
  | .http post, msg => post.accept msg

/-- What the endpoint asserts about a frame. A frame that declares its own
version is none of the adapter's session's. -/
def Endpoint.facts : Endpoint → JsonRpcMessage → Facts
  | .pipe conn config, _ =>
      { principal := config.identity, session := none, connection := some conn }
  | .adapted conn config candidate session, msg =>
      { principal := config.identity
        session :=
          if LegacySessionAdapter.isInitialize msg then some candidate
          else if (Meta.requestProtocolVersion msg.params).isNone then session
          else none
        connection := some conn }
  | .http post, msg =>
      { principal := post.principal
        session := if Http.isInitialize msg then some post.minted else post.sessionHeader
        connection := if Http.opensStream msg then some post.stream else none }

theorem stamped_adapted (conn : String) (config : ServeConfig) (candidate : String)
    (session : Option String) {msg dispatched : JsonRpcMessage}
    (h : (Endpoint.adapted conn config candidate session).accept msg = some dispatched) :
    Stamped ((Endpoint.adapted conn config candidate session).facts msg) dispatched := by
  have hpipe := stamped_stampInbound conn config msg
  simp only [Endpoint.accept, isInitialize_stampInbound] at h
  simp only [Endpoint.facts]
  split at h
  · rename_i hinit
    cases h
    rw [if_pos hinit]
    exact hpipe.assertSession candidate
  · rename_i hinit
    cases h
    rw [if_neg hinit]
    unfold LegacySessionAdapter.stampSession
    rw [version_stampInbound]
    cases session with
    | none =>
        rw [ite_self]
        exact hpipe
    | some sid =>
        simp only
        split
        · exact (hpipe.version _).assertSession sid
        · exact hpipe

theorem http_kinds_setRequestMeta (msg : JsonRpcMessage) (key : String) (value : Value) :
    Http.isInitialize (Meta.setRequestMeta msg key value) = Http.isInitialize msg ∧
      Http.opensStream (Meta.setRequestMeta msg key value) = Http.opensStream msg := by
  cases msg <;> exact ⟨rfl, rfl⟩

theorem http_kinds_assertPrincipal (principal : Option Value) (msg : JsonRpcMessage) :
    Http.isInitialize (Http.assertPrincipal principal (Meta.sanitizeInbound msg)) =
        Http.isInitialize msg ∧
      Http.opensStream (Http.assertPrincipal principal (Meta.sanitizeInbound msg)) =
        Http.opensStream msg := by
  cases msg <;> cases principal <;> exact ⟨rfl, rfl⟩

theorem stamped_assertConnection (post : Http.Post) {f : Facts} {msg : JsonRpcMessage}
    (h : Stamped f msg) (hf : f.connection = none) :
    Stamped { f with connection := if Http.opensStream msg then some post.stream else none }
      (Http.assertConnection post msg) := by
  unfold Http.assertConnection
  split
  · exact h.assertConnection post.stream
  · exact ⟨h.principal, h.session, fun hroom => (h.connection hroom).trans (by rw [hf])⟩

theorem stamped_http (post : Http.Post) {msg dispatched : JsonRpcMessage}
    (h : (Endpoint.http post).accept msg = some dispatched) :
    Stamped ((Endpoint.http post).facts msg) dispatched := by
  obtain ⟨hinit, hopens⟩ := http_kinds_assertPrincipal post.principal msg
  have hprincipal : Stamped ⟨post.principal, none, none⟩
      (Http.assertPrincipal post.principal (Meta.sanitizeInbound msg)) := by
    have hs := stamped_sanitizeInbound msg
    unfold Http.assertPrincipal
    cases post.principal with
    | none => exact hs
    | some principal => exact hs.assertPrincipal principal
  simp only [Endpoint.accept, Http.Post.accept] at h
  split at h
  · obtain ⟨asserted, hasserted, rfl⟩ := Option.map_eq_some_iff.mp h
    -- The session is stamped beside the principal; what opens a stream still does.
    have hsession : Stamped ⟨post.principal,
        if Http.isInitialize msg then some post.minted else post.sessionHeader, none⟩ asserted ∧
          Http.opensStream asserted = Http.opensStream msg := by
      unfold Http.assertSession at hasserted
      rw [hinit] at hasserted
      split at hasserted
      · cases hasserted
        rw [(http_kinds_setRequestMeta _ _ _).2, if_pos ‹_›]
        exact ⟨hprincipal.assertSession post.minted, hopens⟩
      · rw [if_neg ‹_›]
        split at hasserted
        · rename_i sid hsid
          cases hasserted
          rw [(http_kinds_setRequestMeta _ _ _).2, hsid]
          unfold Http.stampVersion
          split
          · exact ⟨hprincipal.assertSession sid, hopens⟩
          · rw [(http_kinds_setRequestMeta _ _ _).2]
            exact ⟨(hprincipal.version _).assertSession sid, hopens⟩
        · rename_i hnone
          split at hasserted
          · cases hasserted
          · cases hasserted
            rw [hnone]
            exact ⟨hprincipal, hopens⟩
    have hconn := stamped_assertConnection post hsession.1 rfl
    rw [hsession.2] at hconn
    exact hconn
  · cases h

@[simp] theorem hasRoom_stampInbound (conn : String) (config : ServeConfig)
    (msg : JsonRpcMessage) : hasRoom (stampInbound conn config msg) = hasRoom msg := by
  unfold stampInbound
  cases config.identity <;> simp

/-- What stamping and stripping keep, an endpoint keeps. -/
theorem accept_induction {P : JsonRpcMessage → Prop}
    (hset : ∀ msg key value, P msg → P (Meta.setRequestMeta msg key value))
    (hstrip : ∀ msg, P msg → P (Meta.sanitizeInbound msg)) {ep : Endpoint}
    {msg dispatched : JsonRpcMessage} (h : ep.accept msg = some dispatched) (hmsg : P msg) :
    P dispatched := by
  have hpipe (conn : String) (config : ServeConfig) : P (stampInbound conn config msg) := by
    unfold stampInbound
    cases config.identity with
    | none => exact hset _ _ _ (hstrip _ hmsg)
    | some principal => exact hset _ _ _ (hset _ _ _ (hstrip _ hmsg))
  cases ep with
  | pipe conn config =>
      cases h
      exact hpipe conn config
  | adapted conn config candidate session =>
      simp only [Endpoint.accept] at h
      split at h
      · cases h
        exact hset _ _ _ (hpipe conn config)
      · cases h
        unfold LegacySessionAdapter.stampSession
        split
        · exact hpipe conn config
        · split
          · exact hset _ _ _ (hset _ _ _ (hpipe conn config))
          · exact hpipe conn config
  | http post =>
      simp only [Endpoint.accept, Http.Post.accept] at h
      split at h
      · obtain ⟨asserted, hasserted, rfl⟩ := Option.map_eq_some_iff.mp h
        have hprincipal : P (Http.assertPrincipal post.principal (Meta.sanitizeInbound msg)) := by
          unfold Http.assertPrincipal
          split
          · exact hstrip _ hmsg
          · exact hset _ _ _ (hstrip _ hmsg)
        have hsession : P asserted := by
          unfold Http.assertSession at hasserted
          split at hasserted
          · cases hasserted
            exact hset _ _ _ hprincipal
          · split at hasserted
            · cases hasserted
              apply hset
              unfold Http.stampVersion
              split
              · exact hprincipal
              · exact hset _ _ _ hprincipal
            · split at hasserted
              · cases hasserted
              · cases hasserted
                exact hprincipal
        unfold Http.assertConnection
        split
        · exact hset _ _ _ hsession
        · exact hsession
      · cases h

/-- Stamping neither makes nor takes room. -/
theorem hasRoom_accept {ep : Endpoint} {msg dispatched : JsonRpcMessage}
    (h : ep.accept msg = some dispatched) : hasRoom dispatched = hasRoom msg := by
  apply accept_induction (P := fun m => hasRoom m = hasRoom msg) ?_ ?_ h rfl
  · intro m key value hm
    rw [hasRoom_setRequestMeta, hm]
  · intro m hm
    rw [hasRoom_sanitizeInbound, hm]

theorem stamped_accept (ep : Endpoint) {msg dispatched : JsonRpcMessage}
    (h : ep.accept msg = some dispatched) : Stamped (ep.facts msg) dispatched := by
  cases ep with
  | pipe conn config =>
      cases h
      exact stamped_stampInbound conn config msg
  | adapted conn config candidate session => exact stamped_adapted conn config candidate session h
  | http post => exact stamped_http post h

/-! ## Internal entries -/

/-- Maps with the same entries, in the same order, but for internal ones. -/
inductive SameOutside : Map → Map → Prop
  | nil : SameOutside [] []
  | shared (e : String × Value) {m m' : Map} (h : SameOutside m m') :
      SameOutside (e :: m) (e :: m')
  | left (e : String × Value) {m m' : Map} (he : Meta.internal.isInternalKey e.1 = true)
      (h : SameOutside m m') : SameOutside (e :: m) m'
  | right (e : String × Value) {m m' : Map} (he : Meta.internal.isInternalKey e.1 = true)
      (h : SameOutside m m') : SameOutside m (e :: m')

/-- Frames that differ only in internal entries of their `_meta` objects. -/
inductive DifferInternally : JsonRpcMessage → JsonRpcMessage → Prop
  | same (msg : JsonRpcMessage) : DifferInternally msg msg
  | request (r : JsonRpcRequest) (obj : Map) {m m' : Map} (h : SameOutside m m') :
      DifferInternally
        (.request { r with params := some (.object (Map.insert obj "_meta" (.object m))) })
        (.request { r with params := some (.object (Map.insert obj "_meta" (.object m'))) })
  | notification (n : JsonRpcNotification) (obj : Map) {m m' : Map} (h : SameOutside m m') :
      DifferInternally
        (.notification { n with params := some (.object (Map.insert obj "_meta" (.object m))) })
        (.notification { n with params := some (.object (Map.insert obj "_meta" (.object m'))) })

theorem SameOutside.retain_eq {m m' : Map} (h : SameOutside m m') :
    Map.retain m (fun key => !Meta.internal.isInternalKey key) =
      Map.retain m' fun key => !Meta.internal.isInternalKey key := by
  induction h with
  | nil => rfl
  | shared e h ih =>
      simp only [Map.retain, List.filter_cons] at ih ⊢
      rw [ih]
  | left e he h ih => simpa [Map.retain, List.filter_cons, he] using ih
  | right e he h ih => simpa [Map.retain, List.filter_cons, he] using ih

theorem SameOutside.retainMeta_eq {m m' : Map} (h : SameOutside m m') (obj : Map) :
    Meta.retainMeta (fun key => !Meta.internal.isInternalKey key)
        (some (.object (Map.insert obj "_meta" (.object m)))) =
      Meta.retainMeta (fun key => !Meta.internal.isInternalKey key)
        (some (.object (Map.insert obj "_meta" (.object m')))) := by
  simp only [Meta.retainMeta, Map.get_insert_self, Map.insert_insert_self, h.retain_eq]

theorem DifferInternally.sanitizeInbound_eq {msg msg' : JsonRpcMessage}
    (h : DifferInternally msg msg') :
    Meta.sanitizeInbound msg' = Meta.sanitizeInbound msg := by
  cases h with
  | same => rfl
  | request r obj h => simp only [Meta.sanitizeInbound, JsonRpcMessage.mapParams, h.retainMeta_eq]
  | notification n obj h =>
      simp only [Meta.sanitizeInbound, JsonRpcMessage.mapParams, h.retainMeta_eq]

/-- `stripped` is `msg` without the internal entries of its `_meta`, and
otherwise `msg`. -/
structure Stripped (msg stripped : JsonRpcMessage) : Prop where
  entries : ∀ key, Meta.entry key stripped.params =
    if Meta.internal.isInternalKey key then none else Meta.entry key msg.params
  members : ∀ name, name ≠ "_meta" →
    stripped.params.bind (·.get name) = msg.params.bind (·.get name)
  envelope : ∀ params, stripped.mapParams (fun _ => params) = msg.mapParams fun _ => params
  untouched : Meta.metaObject msg.params = none → stripped = msg

theorem member_retainMeta (p : String → Bool) {name : String} (hname : name ≠ "_meta")
    (params : Option Value) :
    (Meta.retainMeta p params).bind (·.get name) = params.bind (·.get name) := by
  unfold Meta.retainMeta
  split
  · split
    · simp [Map.get_insert, hname.symm]
    · rfl
  · rfl

theorem retainMeta_of_no_meta (p : String → Bool) {params : Option Value}
    (h : Meta.metaObject params = none) : Meta.retainMeta p params = params := by
  unfold Meta.retainMeta
  split
  · split
    · rename_i obj m hm
      simp [Meta.metaObject, hm, Value.asObject] at h
    · rfl
  · rfl

theorem stripped_sanitizeInbound (msg : JsonRpcMessage) :
    Stripped msg (Meta.sanitizeInbound msg) where
  entries := fun key => entry_sanitizeInbound key msg
  members := fun name hname => by
    cases msg with
    | request r => exact member_retainMeta _ hname r.params
    | notification n => exact member_retainMeta _ hname n.params
    | response r => rfl
  envelope := fun params => JsonRpcMessage.mapParams_mapParams _ _ msg
  untouched := fun hnone => by
    cases msg with
    | request r =>
        exact congrArg (fun params => JsonRpcMessage.request { r with params })
          (retainMeta_of_no_meta _ hnone)
    | notification n =>
        exact congrArg (fun params => JsonRpcMessage.notification { n with params })
          (retainMeta_of_no_meta _ hnone)
    | response r => rfl

/-- The frame and the facts depend on a frame only through what is left of it
once its internal entries are stripped. -/
theorem accept_of_sanitized (ep : Endpoint) {msg msg' : JsonRpcMessage}
    (h : Meta.sanitizeInbound msg' = Meta.sanitizeInbound msg) :
    ep.accept msg' = ep.accept msg := by
  have hstamp (conn : String) (config : ServeConfig) :
      stampInbound conn config msg' = stampInbound conn config msg := by
    simp only [stampInbound, h]
  cases ep with
  | pipe conn config => simp only [Endpoint.accept, hstamp]
  | adapted conn config candidate session => simp only [Endpoint.accept, hstamp]
  | http post => simp only [Endpoint.accept, Http.Post.accept, h]

/-! ## The boundary -/

/-- The dispatcher reads ids off requests and notifications of its protocol. -/
def readsIds : JsonRpcMessage → Bool
  | .response _ => false
  | msg => msg.hasValidVersion

/-- The ids read off a dispatched frame are those of `f`. -/
def IdsAsserted (f : Facts) (dispatched : JsonRpcMessage) : Prop :=
  readsIds dispatched = true →
    sessionId dispatched.params = f.session ∧ connectionId dispatched.params = f.connection

/-- The frame can carry what the endpoint asserts of it: it has room, or nothing
is read off it, or there are no ids to carry. -/
def Endpoint.stampsReach (ep : Endpoint) (msg : JsonRpcMessage) : Prop :=
  hasRoom msg = true ∨ readsIds msg = false ∨
    (ep.facts msg).session = none ∧ (ep.facts msg).connection = none

/-- Dispatching a frame works with the transport's principal, session and
connection, and nothing the client writes into internal entries changes it. -/
structure Trusted {N : Type} (d : VersionDispatcher N) (ep : Endpoint)
    (msg dispatched : JsonRpcMessage) : Prop where
  uses : UsesOnly (ep.facts msg).asserted (handle d dispatched) fun _ => True
  ids : IdsAsserted (ep.facts msg) dispatched
  blind : ∀ msg', DifferInternally msg msg' → ep.accept msg' = some dispatched

variable {N : Type}

theorem readsIds_accept {ep : Endpoint} {msg dispatched : JsonRpcMessage}
    (h : ep.accept msg = some dispatched) : readsIds dispatched = readsIds msg := by
  apply accept_induction (P := fun m => readsIds m = readsIds msg) ?_ ?_ h rfl
  · intro m key value hm
    rw [← hm]
    cases m <;> rfl
  · intro m hm
    rw [← hm]
    cases m <;> rfl

/-- Where nothing is read off a frame, nothing it should have carried is used. -/
theorem usesOnly_of_not_readsIds (d : VersionDispatcher N) (a : Asserted)
    {msg : JsonRpcMessage} (h : readsIds msg = false) :
    UsesOnly a (handle d msg) fun _ => True := by
  unfold handle
  cases hvalid : msg.hasValidVersion with
  | false =>
      simp only [Bool.false_eq_true, if_false]
      cases msg <;> trivial
  | true =>
      cases msg with
      | request r => simp_all [readsIds]
      | notification n => simp_all [readsIds]
      | response r => exact ⟨trivial, fun _ _ => trivial⟩

/-- Whatever a frame is, dispatching it uses what the endpoint asserts, or no ids
where it has no room. -/
theorem usesOnly_seenIn (d : VersionDispatcher N) {ep : Endpoint}
    {msg dispatched : JsonRpcMessage} (h : ep.accept msg = some dispatched) :
    UsesOnly ((ep.facts msg).seenIn msg) (handle d dispatched) fun _ => True := by
  have hcarries := (stamped_accept ep h).carries
  have hseen : (ep.facts msg).seenIn dispatched = (ep.facts msg).seenIn msg := by
    simp only [Facts.seenIn, hasRoom_accept h]
  exact usesOnly_handle (hseen ▸ hcarries)

theorem idsRead_of_accept {ep : Endpoint} {msg dispatched : JsonRpcMessage}
    (h : ep.accept msg = some dispatched) :
    sessionId dispatched.params = ((ep.facts msg).seenIn msg).session ∧
      connectionId dispatched.params = ((ep.facts msg).seenIn msg).connection := by
  have hcarries := (stamped_accept ep h).carries
  simp only [Facts.seenIn, hasRoom_accept h] at hcarries ⊢
  exact ⟨hcarries.session, hcarries.connection⟩

theorem seenIn_eq {f : Facts} {msg : JsonRpcMessage}
    (h : hasRoom msg = true ∨ f.session = none ∧ f.connection = none) :
    f.seenIn msg = f.asserted := by
  unfold Facts.seenIn
  split
  · rfl
  · obtain hroom | ⟨hsession, hconnection⟩ := h
    · contradiction
    · simp [Facts.asserted, hsession, hconnection]

theorem trusted_of_seenIn (d : VersionDispatcher N) {ep : Endpoint}
    {msg dispatched : JsonRpcMessage} (h : ep.accept msg = some dispatched)
    (hseen : (ep.facts msg).seenIn msg = (ep.facts msg).asserted)
    (hblind : ∀ msg', DifferInternally msg msg' → ep.accept msg' = some dispatched) :
    Trusted d ep msg dispatched := by
  have huses := usesOnly_seenIn d h
  have hids := idsRead_of_accept h
  rw [hseen] at huses hids
  exact ⟨huses, fun _ => hids, hblind⟩

/-- **Trust boundary**: every effect of dispatching a frame works with the
endpoint's principal, internal entries are stripped and nothing else is, and
frames that differ only in them are dispatched as the very same program.  The
endpoint's session and connection are used exactly where the frame can carry
them. -/
theorem trust_boundary_iff (d : VersionDispatcher N) (ep : Endpoint)
    (msg dispatched : JsonRpcMessage) (h : ep.accept msg = some dispatched) :
    UsesOnly ((ep.facts msg).seenIn msg) (handle d dispatched) (fun _ => True) ∧
      Stripped msg (Meta.sanitizeInbound msg) ∧
      (∀ msg', DifferInternally msg msg' → ep.accept msg' = some dispatched) ∧
      (Trusted d ep msg dispatched ↔ ep.stampsReach msg) := by
  have hblind : ∀ msg', DifferInternally msg msg' → ep.accept msg' = some dispatched :=
    fun msg' hdiffer => (accept_of_sanitized ep hdiffer.sanitizeInbound_eq).trans h
  refine ⟨usesOnly_seenIn d h, stripped_sanitizeInbound msg, hblind, ?_, ?_⟩
  · intro htrusted
    cases hroom : hasRoom msg with
    | true => exact .inl hroom
    | false =>
        cases hreads : readsIds msg with
        | false => exact .inr (.inl hreads)
        | true =>
            -- the frame is read, and without room both ids read as absent
            have hids := htrusted.ids ((readsIds_accept h).trans hreads)
            have hread := idsRead_of_accept h
            simp only [Facts.seenIn, hroom, Bool.false_eq_true, if_false] at hread
            exact .inr (.inr ⟨hids.1.symm.trans hread.1, hids.2.symm.trans hread.2⟩)
  · rintro (hroom | hreads | hnone)
    · exact trusted_of_seenIn d h (seenIn_eq (.inl hroom)) hblind
    · have hdispatched := (readsIds_accept h).trans hreads
      exact ⟨usesOnly_of_not_readsIds d _ hdispatched,
        fun hread => Bool.false_ne_true (hdispatched.symm.trans hread) |>.elim, hblind⟩
    · exact trusted_of_seenIn d h (seenIn_eq (.inr hnone)) hblind

/-- A call with a forged identity, off a pipe of a known principal. -/
def forgedCall : JsonRpcMessage :=
  .request
    { id := .number 1
      method := methods.toolsCall
      params := some (.object [("_meta", .object
        [("io.turbomcp.internal/identity", .object [("sub", .string "root")])])]) }

def honestCall : JsonRpcMessage :=
  .request
    { id := .number 1
      method := methods.toolsCall
      params := some (.object [("_meta", .object [])]) }

/-- The forged identity is gone, the guest's stands in its place, and the same
call without the forgery is the same program. -/
theorem trust_boundary_forged :
    let ep := Endpoint.pipe "conn-1"
      { maxInFlight := 1, identity := some (.object [("sub", .string "guest")]) }
    ((ep.facts forgedCall).asserted).identity.subject = some "guest" ∧
      ∃ dispatched, ep.accept forgedCall = some dispatched ∧
        Trusted legacyServer ep forgedCall dispatched ∧ ep.accept honestCall = some dispatched := by
  intro ep
  have hboundary := trust_boundary_iff legacyServer ep forgedCall _ rfl
  have hdiffer : DifferInternally forgedCall honestCall :=
    .request { id := .number 1, method := methods.toolsCall, params := none } []
      (.left _ (by decide) .nil)
  exact ⟨by decide, _, rfl, hboundary.2.2.2.mpr (.inl (by decide)), hboundary.2.2.1 _ hdiffer⟩

/-- The connection a program's first look at its token names. -/
def firstToken {α : Type} : Dispatch N α → Option (Option String)
  | .call (.isCancelled conn _) _ => some conn
  | _ => none

theorem UsesOnly.firstToken {α : Type} {a : Asserted} {p : Dispatch N α} {Q : α → Prop}
    {conn : Option String} (h : UsesOnly a p Q) (hp : firstToken p = some conn) :
    conn = a.connection := by
  unfold Server.firstToken at hp
  split at hp
  · cases hp
    exact h.1
  · cases hp

/-- An `initialize` whose `_meta` is `null`. -/
def nullMeta : JsonRpcMessage :=
  .request
    { id := .number 1
      method := methods.initializeRequest
      params := some (.object [("_meta", .null)]) }

/-- **A frame without room loses its ids**: the pipe `conn-1` does not reach the
dispatcher with `nullMeta`, whose first effect asks for a cancellation on no
connection at all. -/
theorem null_meta_drops_connection :
    let ep := Endpoint.pipe "conn-1" { maxInFlight := 1, identity := none }
    ∃ dispatched, ep.accept nullMeta = some dispatched ∧
      connectionId dispatched.params = none ∧ ¬ Trusted legacyServer ep nullMeta dispatched := by
  refine ⟨_, rfl, by decide, fun h => ?_⟩
  have hfirst : firstToken (handle legacyServer
      (stampInbound "conn-1" { maxInFlight := 1, identity := none } nullMeta)) = some none := by
    decide +kernel
  cases h.uses.firstToken hfirst

end TurboMcp.Server
