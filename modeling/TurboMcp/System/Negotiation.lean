import TurboMcp.System.Link

/-!
# Version negotiation

A connected client has settled on a version; the dispatcher should support it
and route the client's later requests by it.  `server/discover` is answered
whatever the dispatcher supports, and the client reads neither its
`supportedVersions` nor the version `initialize` negotiated, so both settle on
the version of the handshake that succeeded.
-/

namespace TurboMcp.System

open TurboMcp.Core TurboMcp.Lib TurboMcp.Service TurboMcp.Transport TurboMcp.Server
  TurboMcp.Client

variable {N : Type} {d : VersionDispatcher N}

/-! ## Answers to the handshakes -/

/-- Surroundings that cancel nothing, and where every handler, extension and
store declines. -/
def declining : (e : Effect) → Answer N e
  | .sessionGet _ => (none : Option SessionState)
  | .sweepExpired => ([] : List String)
  | .isCancelled _ _ | .inflightCancel _ _ | .subscriptionRemove _ _ | .writer _
  | .send _ _ | .pendingComplete _ => false
  | .stateVerify _ _ _ => Except.ok Value.null
  | .stateSign _ _ _ => Except.ok ""
  | .capability call =>
      (⟨.error (.methodNotFound call.capability.method), Map.empty, none⟩ : HandlerOutcome N)
  | .extensionDispatch _ r => methodNotFound r.request
  | .augmentCall _ _ => (none : Option JsonRpcMessage)
  | .onSubscribe _ _ _ _ _ => SubscribeOutcome.notApplicable
  | .taskCreate _ _ | .taskGet _ _ | .taskCancel _ _ | .taskList _ _ _
  | .taskWaitResult _ _ => Except.error TaskError.notFound
  | .mintSession => ""
  | .adapterSession => (none : Option String)
  | .sessionInsert _ _ | .sessionSetLogLevel _ _ | .inflightRegister _ _
  | .inflightRelease _ _ | .legacyTouch _ _ | .legacyRemove _ | .legacySubscribe _ _ _
  | .legacyUnsubscribe _ _ | .subscriptionInsert _ _ _ | .taskSpawn _ _
  | .commitSession _ => ()

/-- The effects are answered as `declining` answers them. -/
def Declined (e : Effect) (r : Answer N e) : Prop := r = declining e

theorem stampServerInfo_response (resp : JsonRpcResponse) (info : Implementation) :
    ∃ resp', stampServerInfo (.response resp) info = .response resp' ∧
      resp'.error = resp.error := by
  unfold stampServerInfo
  simp only
  split
  · split
    · exact ⟨_, rfl, rfl⟩
    · split
      · exact ⟨_, rfl, rfl⟩
      · exact ⟨_, rfl, rfl⟩
    · exact ⟨_, rfl, rfl⟩
  · exact ⟨_, rfl, rfl⟩

section

variable {A : (e : Effect) → Answer N e → Prop} {req : JsonRpcRequest}
  {E : Option JsonRpcError → Prop}

/-- The dispatcher's reply is a response whose error part is in `E`. -/
def Replies (E : Option JsonRpcError → Prop) (msg : JsonRpcMessage) : Prop :=
  ∃ resp, msg = .response resp ∧ E resp.error

/-- **What `handle` answers** is what `handle_request` answers, unless the
request's token fires. -/
theorem wp_handle (hvalid : req.jsonrpc = jsonrpcVersion)
    (hm : req.method ≠ methods.subscriptionsListen)
    (h : Program.wp (fun _ => True) A (handleRequest d req) fun out =>
      ∃ msg, out = .ok msg ∧ Replies E msg) :
    Program.wp (fun _ => True) A (handle d (.request req)) fun out =>
      (out = .ok none ∧ A (.isCancelled (connectionId req.params) req.id) true) ∨
        ∃ msg, out = .ok (some msg) ∧ Replies E msg := by
  have hv : (JsonRpcMessage.request req).hasValidVersion = true := by
    simpa [JsonRpcMessage.hasValidVersion] using hvalid
  unfold handle
  rw [if_pos hv]
  refine wp_whileInFlight (fun _ _ => trivial) (fun _ _ => trivial) ?_
  unfold handleTracked
  rw [if_neg hm]
  have hraced : Program.wp (fun _ => True) A
      (untilCancelled (connectionId req.params) req.id (handleRequest d req)) fun out =>
        (out = none ∧ A (.isCancelled (connectionId req.params) req.id) true) ∨
          ∃ msg, out = some (.ok msg) ∧ Replies E msg := by
    refine wp_untilCancelled trivial (fun hfired => Or.inl ⟨rfl, hfired⟩) ?_
    exact Program.wp_mono h fun out ⟨msg, hout, hmsg⟩ => Or.inr ⟨msg, congrArg some hout, hmsg⟩
  refine Program.wp_seq hraced fun out hout => ?_
  rcases hout with ⟨rfl, hfired⟩ | ⟨msg, rfl, resp, rfl, hE⟩
  · exact Or.inl ⟨rfl, hfired⟩
  · refine Or.inr ⟨_, rfl, ?_⟩
    split
    · obtain ⟨resp', hstamped, herr⟩ := stampServerInfo_response resp d.serverInfo
      exact ⟨resp', hstamped, herr ▸ hE⟩
    · exact ⟨resp, rfl, hE⟩

/-- What a declined program surely returns, it can return. -/
theorem yields_of_declined {α : Type} {p : Dispatch N α} {Q : α → Prop}
    (h : Program.wp (fun _ => True) Declined p Q) :
    ∃ a, Program.Yields (fun _ _ => True) p a ∧ Q a := by
  obtain ⟨a, ha⟩ := Program.exists_yields (A := Declined) p fun e => ⟨declining e, rfl⟩
  exact ⟨a, ha.mono fun _ _ _ => trivial, ha.of_wp h⟩

/-- Discovery fails for no reason of the dispatcher's own. -/
theorem wp_discover (hm : req.method = methods.discover) (hext : extensionFor d req = none) :
    Program.wp (fun _ => True) A (handleRequest d req) fun out =>
      ∃ msg, out = .ok msg ∧ Replies (· = none) msg := by
  unfold handleRequest
  rw [hext]
  simp only [if_pos hm]
  exact ⟨_, rfl, _, rfl, rfl⟩

/-- An extension that owns `server/discover` can decline it. -/
theorem wp_discover_owned {ext : Extension} (hext : extensionFor d req = some ext) :
    Program.wp (fun _ => True) Declined (handleRequest d req) fun out =>
      ∃ msg, out = .ok msg ∧ Replies (fun e => ∃ e', e = some e' ∧ e'.code = -32601) msg := by
  have hdeclined (r : JsonRpcRequest) :
      Replies (fun e => ∃ e', e = some e' ∧ e'.code = -32601) (methodNotFound r) :=
    ⟨_, rfl, _, rfl, rfl⟩
  unfold handleRequest
  rw [hext]
  simp only
  unfold handleExtension
  simp only
  split
  · refine ⟨trivial, ?_⟩
    rintro reply rfl
    exact ⟨_, rfl, hdeclined _⟩
  · exact ⟨_, rfl, hdeclined req⟩

theorem wp_handleInitialize (tasksEnabled : Bool) :
    Program.wp (fun _ => True) A (handleInitialize d tasksEnabled req)
      (Replies fun e => e = none ↔ (req.params.bind d.wire.decodeInitialize).isSome) := by
  unfold handleInitialize
  split
  · rename_i hnone
    exact ⟨_, rfl, by simp [hnone, JsonRpcResponse.failure]⟩
  · rename_i v hv
    split
    · rename_i hbad
      exact ⟨_, rfl, by simp [hv, hbad, JsonRpcResponse.failure]⟩
    · rename_i params hgood
      have hreply : Replies (fun e => e = none ↔ (req.params.bind d.wire.decodeInitialize).isSome)
          (okValue req.id (initializeResult d tasksEnabled
            (negotiateInitializeVersion params.protocolVersion d.supported))) :=
        ⟨_, rfl, by simp [hv, hgood, JsonRpcResponse.success]⟩
      unfold storeSession
      split
      · exact hreply
      · exact ⟨trivial, fun _ _ => hreply⟩

theorem wp_removeRoutes (sids : List String) :
    Program.wp (fun _ => True) A (removeRoutes (N := N) sids) fun _ => True := by
  induction sids with
  | nil => trivial
  | cons sid sids ih => exact ⟨trivial, fun _ _ => ih⟩

/-- `initialize` succeeds exactly when its parameters decode. -/
theorem wp_initialize (hm : req.method = methods.initializeRequest)
    (hext : extensionFor d req = none) :
    Program.wp (fun _ => True) A (handleRequest d req) fun out =>
      ∃ msg, out = .ok msg ∧
        Replies (fun e => e = none ↔ (req.params.bind d.wire.decodeInitialize).isSome) msg := by
  have hdiscover : req.method ≠ methods.discover := by
    rw [hm]
    decide
  have hping : req.method ≠ methods.ping := by
    rw [hm]
    decide
  unfold handleRequest
  rw [hext]
  simp only [if_neg hdiscover, if_neg hping, if_pos hm]
  refine Program.wp_seq ?_ fun msg hmsg => ⟨msg, rfl, hmsg⟩
  have hswept : Program.wp (fun _ => True) A (Dispatch.sweepExpired (N := N)) fun _ => True :=
    ⟨trivial, fun _ _ => trivial⟩
  refine Program.wp_seq hswept fun swept _ => ?_
  refine Program.wp_seq (wp_removeRoutes swept) fun _ _ => ?_
  refine Program.wp_seq (wp_handleInitialize _) fun msg hmsg => ?_
  obtain ⟨resp, rfl, hE⟩ := hmsg
  simp only
  split
  · have htouched : Program.wp (fun _ => True) A (touchSession (N := N) req) fun _ => True := by
      unfold touchSession
      split
      · trivial
      · exact ⟨trivial, fun _ _ => trivial⟩
    exact Program.wp_seq htouched fun _ _ => ⟨resp, rfl, hE⟩
  · exact ⟨resp, rfl, hE⟩

end

/-! ## Connecting -/

/-- What the client can get of an exchange: the dispatcher's response, or the
failures of a connection. -/
def Serves (d : VersionDispatcher N) (link : Link) : (e : Exchange) → e.Reply → Prop
  | .request method params, (reply : Except ClientError Value) =>
      reply = .error .timeout ∨ reply = .error .closed ∨
        ∃ id msg resp, link.deliver none (.request { id, method, params }) = some msg ∧
          Program.Yields (fun _ _ => True) (handle d msg) (.ok (some (.response resp))) ∧
          reply = completePending resp
  | .notify _ _, (reply : Except ClientError Unit) =>
      reply = .ok () ∨ reply = .error .closed

/-- `connect` succeeds with `h`. -/
def Connects (d : VersionDispatcher N) (link : Link) (b : ClientBuilder) (h : Handshake) : Prop :=
  Program.Yields (Serves d link) b.handshake (.ok h)

/-- An extension owns `server/discover`. -/
def OwnsDiscover (d : VersionDispatcher N) : Prop :=
  ∃ ext ∈ d.extensions, methods.discover ∈ ext.methods

/-- The dispatcher cannot decode the client's `initialize`. -/
def InitializeRejected (d : VersionDispatcher N) (link : Link) (b : ClientBuilder) : Prop :=
  ∀ id msg, link.deliver none
      (.request { id, method := methods.initializeRequest, params := some b.initializeParams }) =
        some msg → msg.params.bind d.wire.decodeInitialize = none

section

variable {link : Link} {b : ClientBuilder}

theorem classifyVersion_of_entry {params : Option Value} {s : String}
    (h : Meta.entry Meta.keys.protocolVersion params = some (.string s)) :
    classifyVersion params d.supported =
      if ProtocolVersion.fromWire s ∉ d.supported then
        .unsupported (some (ProtocolVersion.fromWire s).asStr)
      else if ProtocolVersion.fromWire s = .v2025_11_25 then .legacy
      else .modern := by
  unfold classifyVersion
  rw [Meta.requestProtocolVersion_eq, h]
  rfl

theorem classifyVersion_of_none {params : Option Value}
    (h : Meta.entry Meta.keys.protocolVersion params = none) :
    classifyVersion params d.supported = .unsupported none := by
  unfold classifyVersion
  rw [Meta.requestProtocolVersion_eq, h]
  rfl

theorem extensionFor_of_route {req : JsonRpcRequest}
    (h : classifyVersion req.params d.supported ≠ .modern) : extensionFor d req = none := by
  unfold extensionFor
  split
  · exact if_neg h
  · rfl

theorem isSome_extensionFor_discover {req : JsonRpcRequest} (hm : req.method = methods.discover)
    (h : classifyVersion req.params d.supported = .modern) :
    (extensionFor d req).isSome ↔ OwnsDiscover d := by
  have hfind : (d.extensions.find? (·.methods.contains req.method)).isSome ↔ OwnsDiscover d := by
    simp [List.find?_isSome, OwnsDiscover, hm]
  rw [← hfind]
  unfold extensionFor
  cases d.extensions.find? (·.methods.contains req.method) with
  | none => rfl
  | some ext => simp [h]

/-! ### The two handshake requests -/

/-- Whatever its id, the request is delivered, and `handle_request` answers it,
under answers in `A`, with a response whose error part is in `E`. -/
def Handled (d : VersionDispatcher N) (link : Link) (A : (e : Effect) → Answer N e → Prop)
    (method : String) (params : Value) (E : JsonRpcRequest → Option JsonRpcError → Prop) : Prop :=
  ∀ id, ∃ req, link.deliver none (.request { id, method, params := some params }) =
      some (.request req) ∧
    req.jsonrpc = jsonrpcVersion ∧ req.method ≠ methods.subscriptionsListen ∧
    Program.wp (fun _ => True) A (handleRequest d req) fun out =>
      ∃ msg, out = .ok msg ∧ Replies (E req) msg

variable {method : String} {params : Value}
  {E : JsonRpcRequest → Option JsonRpcError → Prop}

theorem reply_of_serves (hh : Handled d link (fun _ _ => True) method params E)
    {reply : Except ClientError Value}
    (h : Serves d link (.request method (some params)) reply) :
    reply = .error .timeout ∨ reply = .error .closed ∨
      ∃ id req resp, link.deliver none (.request { id, method, params := some params }) =
        some (.request req) ∧ E req resp.error ∧ reply = completePending resp := by
  rcases h with h | h | ⟨id, msg, resp, hmsg, hyields, hreply⟩
  · exact Or.inl h
  · exact Or.inr (Or.inl h)
  · obtain ⟨req, hreq, hvalid, hm, hwp⟩ := hh id
    obtain rfl : msg = .request req := Option.some.inj (hmsg.symm.trans hreq)
    rcases hyields.of_wp (wp_handle hvalid hm hwp) with ⟨hnone, -⟩ | ⟨m, hout, r, rfl, hE⟩
    · cases hnone
    · cases hout
      exact Or.inr (Or.inr ⟨id, req, resp, hreq, hE, hreply⟩)

theorem serves_of_handled (hh : Handled d link Declined method params E) (id : RequestId) :
    ∃ req resp, link.deliver none (.request { id, method, params := some params }) =
        some (.request req) ∧ E req resp.error ∧
      Serves d link (.request method (some params)) (completePending resp) := by
  obtain ⟨req, hreq, hvalid, hm, hwp⟩ := hh id
  obtain ⟨out, hyields, hout⟩ := yields_of_declined (wp_handle hvalid hm hwp)
  rcases hout with ⟨-, hfired⟩ | ⟨m, rfl, resp, rfl, hE⟩
  · cases hfired
  · exact ⟨req, resp, hreq, hE, Or.inr (Or.inr ⟨id, _, resp, hreq, hyields, rfl⟩)⟩

/-- Discovery is delivered as a draft request. -/
theorem deliver_discover (d : VersionDispatcher N) (link : Link) (b : ClientBuilder)
    (id : RequestId) :
    ∃ req, link.deliver none
        (.request { id, method := methods.discover, params := some b.discoverParams }) =
          some (.request req) ∧
      req.jsonrpc = jsonrpcVersion ∧ req.method = methods.discover ∧
      (.draft ∈ d.supported ↔ classifyVersion req.params d.supported = .modern) := by
  let frame : JsonRpcRequest :=
    { id, method := methods.discover, params := some b.discoverParams }
  have hentry : Meta.entry Meta.keys.protocolVersion frame.params =
      some (.string ProtocolVersion.draft.asStr) := rfl
  have hstated : statedVersion (.request frame) ≠ some ProtocolVersion.v2025_11_25.asStr := by
    have hdraft : statedVersion (.request frame) = some ProtocolVersion.draft.asStr := rfl
    rw [hdraft]
    decide
  obtain ⟨msg, hmsg, params, rfl, hversion, -⟩ :=
    deliver_own link none frame (Or.inr ⟨rfl, hstated⟩)
  refine ⟨_, hmsg, rfl, rfl, ?_⟩
  rw [hentry] at hversion
  have hdraft : ProtocolVersion.fromWire ProtocolVersion.draft.asStr = .draft := by decide
  rw [classifyVersion_of_entry hversion, hdraft]
  by_cases hd : ProtocolVersion.draft ∈ d.supported
  · simp [hd]
  · simp [hd]

/-- Unless an extension owns it, discovery succeeds, whatever is supported. -/
theorem handled_discover {A : (e : Effect) → Answer N e → Prop}
    (hfree : .draft ∈ d.supported → ¬ OwnsDiscover d) :
    Handled d link A methods.discover b.discoverParams fun _ e => e = none := by
  intro id
  obtain ⟨req, hreq, hvalid, hm, hroute⟩ := deliver_discover d link b id
  have hext : extensionFor d req = none := by
    by_cases hd : ProtocolVersion.draft ∈ d.supported
    · have hnone := mt (isSome_extensionFor_discover hm (hroute.mp hd)).mp (hfree hd)
      simpa using hnone
    · exact extensionFor_of_route (mt hroute.mpr hd)
  exact ⟨req, hreq, hvalid, hm ▸ by decide, wp_discover hm hext⟩

theorem handled_discover_owned (hd : .draft ∈ d.supported) (hown : OwnsDiscover d) :
    Handled d link Declined methods.discover b.discoverParams
      fun _ e => ∃ e', e = some e' ∧ e'.code = -32601 := by
  intro id
  obtain ⟨req, hreq, hvalid, hm, hroute⟩ := deliver_discover d link b id
  obtain ⟨ext, hext⟩ := Option.isSome_iff_exists.mp
    ((isSome_extensionFor_discover hm (hroute.mp hd)).mpr hown)
  exact ⟨req, hreq, hvalid, hm ▸ by decide, wp_discover_owned hext⟩

/-- `initialize` is delivered without a version, so no extension sees it. -/
theorem handled_initialize {A : (e : Effect) → Answer N e → Prop} :
    Handled d link A methods.initializeRequest b.initializeParams
      fun req e => e = none ↔ (req.params.bind d.wire.decodeInitialize).isSome := by
  intro id
  let frame : JsonRpcRequest :=
    { id, method := methods.initializeRequest, params := some b.initializeParams }
  have hentry : Meta.entry Meta.keys.protocolVersion frame.params = none := rfl
  obtain ⟨msg, hmsg, params, rfl, hversion, -⟩ := deliver_own link none frame (Or.inl rfl)
  have hroute : classifyVersion params d.supported ≠ .modern := by
    rw [classifyVersion_of_none (hversion.trans hentry)]
    exact VersionRoute.noConfusion
  have hlisten : methods.initializeRequest ≠ methods.subscriptionsListen := by decide
  exact ⟨_, hmsg, rfl, hlisten, wp_initialize rfl (extensionFor_of_route hroute)⟩

/-! ### What the client gets -/

theorem completePending_ok {resp : JsonRpcResponse} (h : resp.error = none) :
    completePending resp = .ok (resp.result.getD .null) := by
  simp [completePending, h]

theorem completePending_error {resp : JsonRpcResponse} {e : JsonRpcError}
    (h : resp.error = some e) : completePending resp = .error (.rpc e) := by
  simp [completePending, h]

/-- Unless an extension owns discovery, no failure of it makes `Auto` fall back. -/
theorem fallsBack_discover {e : ClientError}
    (hfree : .draft ∈ d.supported → ¬ OwnsDiscover d)
    (h : Serves d link (.request methods.discover (some b.discoverParams))
      (Except.error e : Except ClientError Value)) :
    ClientBuilder.fallsBack e = false := by
  rcases reply_of_serves (handled_discover hfree) h with h | h | ⟨id, req, resp, hreq, herr, h⟩
  · cases h
    rfl
  · cases h
    rfl
  · rw [completePending_ok herr] at h
    cases h

theorem serves_discover (link : Link) (b : ClientBuilder)
    (hfree : .draft ∈ d.supported → ¬ OwnsDiscover d) :
    ∃ v, Serves d link (.request methods.discover (some b.discoverParams))
      (Except.ok v : Except ClientError Value) := by
  have hh : Handled d link Declined methods.discover b.discoverParams fun _ e => e = none :=
    handled_discover hfree
  obtain ⟨req, resp, -, herr, hserves⟩ := serves_of_handled hh (.number 1)
  exact ⟨_, completePending_ok herr ▸ hserves⟩

theorem serves_discover_declined (hd : .draft ∈ d.supported) (hown : OwnsDiscover d) :
    ∃ e, ClientBuilder.fallsBack e = true ∧
      Serves d link (.request methods.discover (some b.discoverParams))
        (Except.error e : Except ClientError Value) := by
  obtain ⟨req, resp, -, ⟨e, herr, hcode⟩, hserves⟩ :=
    serves_of_handled (handled_discover_owned hd hown) (.number 1)
  refine ⟨.rpc e, ?_, completePending_error herr ▸ hserves⟩
  simp [ClientBuilder.fallsBack, hcode]

/-- `initialize` succeeds only where its parameters decode. -/
theorem not_rejected_of_serves {v : Value}
    (h : Serves d link (.request methods.initializeRequest (some b.initializeParams))
      (Except.ok v : Except ClientError Value)) : ¬ InitializeRejected d link b := by
  intro hrejected
  rcases reply_of_serves handled_initialize h with h | h | ⟨id, req, resp, hreq, herr, h⟩
  · cases h
  · cases h
  · have hundecoded : req.params.bind d.wire.decodeInitialize = none := hrejected id _ hreq
    have hsome : resp.error ≠ none := by
      rw [Ne, herr, hundecoded]
      exact Bool.false_ne_true
    obtain ⟨e, he⟩ := Option.ne_none_iff_exists'.mp hsome
    rw [completePending_error he] at h
    cases h

theorem serves_initialize (h : ¬ InitializeRejected d link b) :
    ∃ v, Serves d link (.request methods.initializeRequest (some b.initializeParams))
      (Except.ok v : Except ClientError Value) := by
  simp only [InitializeRejected, not_forall] at h
  obtain ⟨id, msg, hmsg, hdecoded⟩ := h
  obtain ⟨req, resp, hreq, herr, hserves⟩ := serves_of_handled handled_initialize id
  obtain rfl : msg = .request req := Option.some.inj (hmsg.symm.trans hreq)
  have hnone : resp.error = none := herr.mpr (Option.isSome_iff_ne_none.mpr hdecoded)
  exact ⟨_, completePending_ok hnone ▸ hserves⟩

/-! ### Both paths -/

theorem yields_modern {r : Except ClientError Handshake} :
    Program.Yields (Serves d link) b.modernHandshake r ↔
      ∃ reply : Except ClientError Value,
        Serves d link (.request methods.discover (some b.discoverParams)) reply ∧
          r = reply.map (Handshake.fromResult .draft) := by
  unfold ClientBuilder.modernHandshake
  rw [yields_request]
  constructor
  · rintro ⟨reply, hserves, hr⟩
    refine ⟨reply, hserves, ?_⟩
    cases reply with
    | error e => exact Program.yields_ret.mp hr
    | ok v => exact Program.yields_ret.mp hr
  · rintro ⟨reply, hserves, rfl⟩
    refine ⟨reply, hserves, ?_⟩
    cases reply with
    | error e => exact .ret _
    | ok v => exact .ret _

theorem yields_legacy {h : Handshake} :
    Program.Yields (Serves d link) b.legacyHandshake (.ok h) ↔
      ∃ v, Serves d link (.request methods.initializeRequest (some b.initializeParams))
          (Except.ok v : Except ClientError Value) ∧
        h = Handshake.fromResult .v2025_11_25 v := by
  unfold ClientBuilder.legacyHandshake
  rw [yields_request]
  constructor
  · rintro ⟨reply, hserves, hr⟩
    cases reply with
    | error e => cases Program.yields_ret.mp hr
    | ok v =>
        obtain ⟨noted, -, hr⟩ := yields_notify.mp hr
        cases noted with
        | error e => cases Program.yields_ret.mp hr
        | ok _ => exact ⟨v, hserves, Except.ok.inj (Program.yields_ret.mp hr)⟩
  · rintro ⟨v, hserves, rfl⟩
    exact ⟨.ok v, hserves, yields_notify.mpr ⟨.ok (), Or.inl rfl, .ret _⟩⟩

/-- A client in `Auto` takes the legacy path only when discovery is declined. -/
theorem connects_auto (hmode : b.connectMode = .auto) {h : Handshake} :
    Connects d link b h ↔
      (∃ v, Serves d link (.request methods.discover (some b.discoverParams))
          (Except.ok v : Except ClientError Value) ∧ h = Handshake.fromResult .draft v) ∨
        (∃ e, ClientBuilder.fallsBack e = true ∧
            Serves d link (.request methods.discover (some b.discoverParams))
              (Except.error e : Except ClientError Value)) ∧
          Program.Yields (Serves d link) b.legacyHandshake (.ok h) := by
  unfold Connects ClientBuilder.handshake
  rw [hmode]
  simp only
  rw [Program.yields_bind]
  constructor
  · rintro ⟨r, hr, hout⟩
    obtain ⟨reply, hserves, rfl⟩ := yields_modern.mp hr
    cases reply with
    | ok v => exact Or.inl ⟨v, hserves, Except.ok.inj (Program.yields_ret.mp hout)⟩
    | error e =>
        cases hfalls : ClientBuilder.fallsBack e with
        | true =>
            simp only [Except.map, hfalls, if_true] at hout
            exact Or.inr ⟨⟨e, hfalls, hserves⟩, hout⟩
        | false =>
            simp only [Except.map, hfalls, Bool.false_eq_true, if_false] at hout
            cases Program.yields_ret.mp hout
  · rintro (⟨v, hserves, rfl⟩ | ⟨⟨e, hfalls, hserves⟩, hlegacy⟩)
    · exact ⟨_, yields_modern.mpr ⟨_, hserves, rfl⟩, .ret _⟩
    · refine ⟨_, yields_modern.mpr ⟨_, hserves, rfl⟩, ?_⟩
      simp only [Except.map, hfalls, if_true]
      exact hlegacy

end

/-! ## Agreement -/

/-- The session the client's later requests belong to. -/
def Link.sessionAfter (link : Link) (version : ProtocolVersion) : Option String :=
  if version = .v2025_11_25 then some link.minted else none

/-- The route that stands for a version. -/
def routeOf (version : ProtocolVersion) : VersionRoute :=
  if version = .v2025_11_25 then .legacy else .modern

/-- What a typed method passes on: `_meta`, where it has one, is an object that
states no version. -/
def Typed (params : Map) : Prop :=
  ∀ v, Map.get params "_meta" = some v →
    ∃ m, v = .object m ∧ Map.get m Meta.keys.protocolVersion = none

/-- Client and dispatcher agree on the version the client settled on. -/
structure Agrees (d : VersionDispatcher N) (link : Link) (b : ClientBuilder) (h : Handshake) :
    Prop where
  isSupported : h.version ∈ d.supported
  routed : ∀ id method params, method ≠ methods.initializeRequest → Typed params →
    ∃ msg, link.deliver (link.sessionAfter h.version)
        (.request { id, method, params := some (.object (versionedParams b h.version params)) }) =
          some msg ∧
      classifyVersion msg.params d.supported = routeOf h.version

section

variable {link : Link} {b : ClientBuilder}

theorem metaObject_versionedParams (b : ClientBuilder) (version : ProtocolVersion)
    {params : Map} (hparams : Typed params) :
    ∃ m, Map.get m Meta.keys.protocolVersion = none ∧
      Meta.metaObject (some (.object (versionedParams b version params))) =
        some (versionedMeta b version m) ∧
      Meta.stampable (some (.object (versionedParams b version params))) = true := by
  have hbase : ∃ m, (Map.get params "_meta").getD (.object []) = .object m ∧
      Map.get m Meta.keys.protocolVersion = none := by
    cases hmeta : Map.get params "_meta" with
    | none => exact ⟨[], rfl, rfl⟩
    | some v =>
        obtain ⟨m, rfl, hm⟩ := hparams v hmeta
        exact ⟨m, rfl, hm⟩
  obtain ⟨m, hm, hfree⟩ := hbase
  have hmerged : versionedParams b version params =
      Map.insert params "_meta" (.object (versionedMeta b version m)) := by
    simp only [versionedParams, hm]
  rw [hmerged]
  exact ⟨m, hfree, by simp [Meta.metaObject], by simp [Meta.stampable]⟩

/-- The draft's envelope routes every later request to the modern path. -/
theorem agrees_draft {h : Handshake} (hversion : h.version = .draft)
    (hd : .draft ∈ d.supported) : Agrees d link b h := by
  refine ⟨hversion ▸ hd, fun id method params hm hparams => ?_⟩
  rw [hversion]
  let frame : JsonRpcRequest :=
    { id, method, params := some (.object (versionedParams b .draft params)) }
  obtain ⟨m, hfree, hmeta, -⟩ := metaObject_versionedParams b .draft hparams
  have hentry : Meta.entry Meta.keys.protocolVersion frame.params =
      some (.string ProtocolVersion.draft.asStr) :=
    (congrArg (·.bind (Map.get · Meta.keys.protocolVersion)) hmeta).trans
      ((get_versionedMeta b .draft hfree).trans (if_pos rfl))
  have hsignal : Meta.entry negotiatedVersionKey frame.params =
      some (.string ProtocolVersion.draft.asStr) :=
    (congrArg (·.bind (Map.get · negotiatedVersionKey)) hmeta).trans
      (get_versionedMeta_signal b .draft m)
  have hstated : statedVersion (.request frame) ≠ some ProtocolVersion.v2025_11_25.asStr := by
    have hdraft : statedVersion (.request frame) = some ProtocolVersion.draft.asStr := by
      rw [statedVersion, show (JsonRpcMessage.request frame).params = frame.params from rfl,
        hsignal]
      rfl
    rw [hdraft]
    decide
  obtain ⟨msg, hmsg, params', rfl, hsame, -⟩ :=
    deliver_own link none frame (Or.inr ⟨rfl, hstated⟩)
  refine ⟨_, hmsg, ?_⟩
  have hdraft : ProtocolVersion.fromWire ProtocolVersion.draft.asStr = .draft := by decide
  have hroute := classifyVersion_of_entry (d := d) (hsame.trans hentry)
  rw [hdraft, if_neg (not_not.mpr hd)] at hroute
  exact hroute

/-- Under its session, every later request takes the legacy path. -/
theorem agrees_legacy {h : Handshake} (hversion : h.version = .v2025_11_25)
    (hd : .v2025_11_25 ∈ d.supported) : Agrees d link b h := by
  refine ⟨hversion ▸ hd, fun id method params hm hparams => ?_⟩
  rw [hversion]
  let frame : JsonRpcRequest :=
    { id, method, params := some (.object (versionedParams b .v2025_11_25 params)) }
  obtain ⟨m, hfree, hmeta, hroom⟩ := metaObject_versionedParams b .v2025_11_25 hparams
  have hentry : Meta.entry Meta.keys.protocolVersion frame.params = none :=
    (congrArg (·.bind (Map.get · Meta.keys.protocolVersion)) hmeta).trans
      ((get_versionedMeta b .v2025_11_25 hfree).trans (if_neg (by decide)))
  obtain ⟨msg, hmsg, params', rfl, hsame, -⟩ :=
    deliver_session link link.minted frame hm hroom hentry
  refine ⟨_, hmsg, ?_⟩
  have hlegacy : ProtocolVersion.fromWire ProtocolVersion.v2025_11_25.asStr = .v2025_11_25 := by
    decide
  have hroute := classifyVersion_of_entry (d := d) hsame
  rw [hlegacy, if_neg (not_not.mpr hd)] at hroute
  exact hroute

/-- The set of versions suits the client's mode: what it settles on when its
handshake succeeds is supported. -/
structure Suits (d : VersionDispatcher N) (link : Link) (b : ClientBuilder) : Prop where
  modern : b.connectMode ≠ .legacy → .draft ∈ d.supported
  legacy : b.connectMode = .legacy ∨ b.connectMode = .auto ∧ OwnsDiscover d →
    .v2025_11_25 ∈ d.supported ∨ InitializeRejected d link b

theorem agrees_of_legacy {h : Handshake}
    (hh : Program.Yields (Serves d link) b.legacyHandshake (.ok h))
    (hd : .v2025_11_25 ∈ d.supported ∨ InitializeRejected d link b) : Agrees d link b h := by
  obtain ⟨v, hserves, rfl⟩ := yields_legacy.mp hh
  rcases hd with hd | hrejected
  · exact agrees_legacy rfl hd
  · exact absurd hrejected (not_rejected_of_serves hserves)

/-- A successful legacy handshake agrees only where `2025-11-25` is supported. -/
theorem legacy_supported (hconnects : ∀ h,
      Program.Yields (Serves d link) b.legacyHandshake (.ok h) → Agrees d link b h) :
    .v2025_11_25 ∈ d.supported ∨ InitializeRejected d link b := by
  rw [or_iff_not_imp_right]
  intro hrejected
  obtain ⟨v, hserves⟩ := serves_initialize hrejected
  exact (hconnects _ (yields_legacy.mpr ⟨v, hserves, rfl⟩)).isSupported

/-- **Version agreement**: whatever the dispatcher registers, every connected
client agrees with it on the version exactly when the set of supported versions
suits the client's mode. -/
theorem agrees_iff (d : VersionDispatcher N) (link : Link) (b : ClientBuilder) :
    (∀ h, Connects d link b h → Agrees d link b h) ↔ Suits d link b := by
  constructor
  · intro hconnects
    cases hmode : b.connectMode with
    | modern =>
        have hdraft : .draft ∈ d.supported := by
          by_contra hd
          obtain ⟨v, hserves⟩ := serves_discover link b fun h => absurd h hd
          refine hd (hconnects (Handshake.fromResult .draft v) ?_).isSupported
          unfold Connects ClientBuilder.handshake
          rw [hmode]
          exact yields_modern.mpr ⟨_, hserves, rfl⟩
        refine ⟨fun _ => hdraft, ?_⟩
        rintro (h | ⟨h, -⟩)
        · cases hmode.symm.trans h
        · cases hmode.symm.trans h
    | legacy =>
        refine ⟨fun h => absurd hmode h, fun _ => legacy_supported fun h hh => hconnects h ?_⟩
        unfold Connects ClientBuilder.handshake
        rw [hmode]
        exact hh
    | auto =>
        have hdraft : .draft ∈ d.supported := by
          by_contra hd
          obtain ⟨v, hserves⟩ := serves_discover link b fun h => absurd h hd
          exact hd (hconnects (Handshake.fromResult .draft v)
            ((connects_auto hmode).mpr (Or.inl ⟨v, hserves, rfl⟩))).isSupported
        refine ⟨fun _ => hdraft, ?_⟩
        rintro (h | ⟨-, hown⟩)
        · cases hmode.symm.trans h
        · refine legacy_supported fun h hh => hconnects h ((connects_auto hmode).mpr (Or.inr ?_))
          exact ⟨serves_discover_declined hdraft hown, hh⟩
  · intro hsuits h hh
    cases hmode : b.connectMode with
    | modern =>
        unfold Connects ClientBuilder.handshake at hh
        rw [hmode] at hh
        obtain ⟨reply, -, hreply⟩ := yields_modern.mp hh
        cases reply with
        | error e => cases hreply
        | ok v =>
            cases hreply
            exact agrees_draft rfl (hsuits.modern (by simp [hmode]))
    | legacy =>
        unfold Connects ClientBuilder.handshake at hh
        rw [hmode] at hh
        exact agrees_of_legacy hh (hsuits.legacy (Or.inl hmode))
    | auto =>
        rcases (connects_auto hmode).mp hh with ⟨v, -, rfl⟩ | ⟨⟨e, hfalls, hserves⟩, hlegacy⟩
        · exact agrees_draft rfl (hsuits.modern (by simp [hmode]))
        · -- discovery was declined, so an extension owns it
          have hown : OwnsDiscover d := by
            by_contra hfree
            have hkept := fallsBack_discover (fun _ => hfree) hserves
            rw [hfalls] at hkept
            cases hkept
          exact agrees_of_legacy hlegacy (hsuits.legacy (Or.inr ⟨hmode, hown⟩))

/-- A client in the default mode. -/
def autoClient : ClientBuilder :=
  { clientInfo := ⟨"client", none, "1"⟩, capabilities := .object [], connectMode := .auto }

/-- **`Auto` settles on the draft against a legacy server**: `legacyServer`, which
supports `2025-11-25` alone, answers discovery, and the client stops there. -/
theorem auto_settles_on_draft :
    ∃ h, Connects legacyServer (.pipe "conn-1" { maxInFlight := 1, identity := none } "s-1")
        autoClient h ∧
      h.version = .draft ∧ .v2025_11_25 ∈ legacyServer.supported ∧
      h.version ∉ legacyServer.supported := by
  have hfree : .draft ∈ legacyServer.supported → ¬ OwnsDiscover legacyServer := by
    rintro hd
    simp [legacyServer] at hd
  obtain ⟨v, hserves⟩ := serves_discover
    (.pipe "conn-1" { maxInFlight := 1, identity := none } "s-1") autoClient hfree
  refine ⟨_, (connects_auto rfl).mpr (Or.inl ⟨v, hserves, rfl⟩), rfl, ?_, ?_⟩
  · exact List.mem_singleton_self _
  · simp [legacyServer, Handshake.fromResult]

end

end TurboMcp.System
