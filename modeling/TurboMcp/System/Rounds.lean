import TurboMcp.Lib.Attempts
import TurboMcp.Server.Executions
import TurboMcp.Server.TaskAnswers
import TurboMcp.System.Elicitation

/-!
# The draft's rounds

A client's call against the dispatcher, round by round: the server runs the handler from
the top with the answers of the latest round, and the client answers what it left behind.
The answers of earlier rounds are gone, so the third round is the first again: a call is
settled by its second request, or it fails after sixteen.  A handler that puts one ask to
the client ends as it does inline; one that puts two, under keys of their own, never ends.
-/

namespace TurboMcp.System

open TurboMcp.Core TurboMcp.Lib TurboMcp.Server TurboMcp.Client

variable {N : Type}

/-! ## The server -/

/-- A draft server with the handler of one capability, which stores no state; what else
its surroundings answer is left open. -/
structure Host (N : Type) where
  d : VersionDispatcher N
  capability : Capability
  handler : RequestContext → Params → Handler N
  env : Surroundings N

namespace Host

variable (s : Host N)

/-- The handler runs on the channel it is given. -/
def outcome (call : CapabilityCall) : HandlerOutcome N :=
  match call.client with
  | some ⟨.mrtr responses stateIn strictKeys, caps⟩ =>
      let run := (s.handler call.ctx call.params).mrtr
        ⟨.mrtr responses stateIn strictKeys, caps⟩ s.d.texts responses strictKeys
      ⟨run.1, run.2, none⟩
  | _ => ⟨.error (.internal "no client channel"), Map.empty, none⟩

/-- What a waiting client gets: without a response it waits in vain. -/
def awaited : Except ProtocolError (Option JsonRpcMessage) → Except ClientError Value
  | .ok (some (.response resp)) => completePending (received resp)
  | _ => .error .timeout

/-- What the client gets for one request. -/
def reply (req : JsonRpcRequest) : Except ClientError Value :=
  awaited ((handle s.d (.request req)).run (handledBy s.env s.outcome))

/-- The connection between client and server; the requests sent so far are counted. -/
def exchange (sent : Nat) : (e : Exchange) → e.Reply × Nat
  | .request method params => (s.reply { id := .number sent, method, params }, sent + 1)
  | .notify _ _ => (.ok (), sent)

/-- The server under a handler that ends at once. -/
def ending (r : Except McpError N) : Host N := { s with handler := fun _ _ => .ret r }

/-- What is asked of the server: the capability's handler may ask the client and is there,
no extension takes its calls over, and no call is cancelled.  A result does not pass for
a request for input. -/
structure Serves : Prop where
  asks : s.capability.asksClient = true
  registers : s.d.router.registers s.capability = true
  unowned : ∀ ext ∈ s.d.extensions, s.capability.method ∉ ext.methods
  unaugmented : ∀ ext call, s.env (.augmentCall ext call) = none
  uncancelled : ∀ connection id, s.env (.isCancelled connection id) = false
  complete : ∀ n, ((s.d.wireResult .draft s.capability n).get "resultType").bind Value.asStr ≠
    some inputRequiredType

/-- The server takes the request up as a call with this context and these parameters. -/
structure Accepts (req : JsonRpcRequest) (ctx : RequestContext) (params : Params) : Prop where
  valid : req.jsonrpc = jsonrpcVersion
  method : req.method = s.capability.method
  route : classifyVersion req.params s.d.supported = .modern
  level : extractLogLevel s.d.texts req.params = .ok ctx.logLevel
  context : ctx = { buildContext req with logLevel := ctx.logLevel }
  parsed : parseParams s.d.texts req.params s.capability = .ok params

end Host

/-! ## The dispatcher, run -/

section

variable (ans : Surroundings N)

theorem run_untilCancelled (h : ∀ connection id, ans (.isCancelled connection id) = false)
    {α : Type} (connection : Option String) (id : RequestId) (p : Dispatch N α) :
    (untilCancelled connection id p).run ans = some (p.run ans) := by
  induction p with
  | ret a => rfl
  | call e k ih =>
      have hgoes : (Dispatch.isCancelled connection id).run ans = false := h connection id
      rw [untilCancelled, Program.run_bind, hgoes]
      exact ih (ans e)

theorem run_whileInFlight {α : Type} (req : JsonRpcRequest) (body : Dispatch N α) :
    (whileInFlight req body).run ans = body.run ans := by
  unfold whileInFlight
  split
  · rfl
  · show Program.run ans (body >>= _) = _
    rw [Program.run_bind]
    rfl

theorem run_map {α β : Type} (f : α → β) (p : Dispatch N α) :
    (f <$> p).run ans = f (p.run ans) :=
  Program.run_bind ans p fun a => .ret (f a)

end

namespace Host

variable {s : Host N} {req : JsonRpcRequest} {ctx : RequestContext} {params : Params}

theorem extensionFor_eq_none (hs : s.Serves) (hmethod : req.method = s.capability.method) :
    extensionFor s.d req = none := by
  unfold extensionFor
  have hnone : s.d.extensions.find? (fun ext => ext.methods.contains req.method) = none := by
    rw [List.find?_eq_none]
    intro ext hext
    rw [hmethod, List.contains_iff_mem]
    exact hs.unowned ext hext
  rw [hnone]

/-- The capabilities whose handlers may ask have methods of their own. -/
theorem method_ne {capability : Capability} (h : capability.asksClient = true) :
    capability.method ≠ methods.subscriptionsListen ∧ capability.method ≠ methods.discover ∧
      capability.method ≠ methods.ping ∧ capability.method ≠ methods.initializeRequest ∧
      Capability.ofMethod capability.method = some capability := by
  cases capability <;> first | (cases h; done) | decide

theorem run_tryAugmentCall (hs : s.Serves) {run : CapabilityCall}
    (hbuild : buildCallRunner s.d req ctx = .ok run) (extensions : List Extension) :
    (tryAugmentCall s.d req ctx extensions).run (handledBy s.env s.outcome) = none := by
  induction extensions with
  | nil => rfl
  | cons ext extensions ih =>
      unfold tryAugmentCall
      split
      · rw [hbuild]
        have hleft : (Dispatch.augmentCall ext.id
            { request := req, context := ctx, connectionId := connectionId req.params, run }).run
              (handledBy s.env s.outcome) = none := hs.unaugmented _ _
        dsimp only
        rw [Program.run_bind, hleft]
        exact ih
      · exact ih

theorem run_offerAugmentation (hs : s.Serves) (ha : s.Accepts req ctx params) :
    (offerAugmentation s.d s.capability req ctx).run (handledBy s.env s.outcome) = none := by
  unfold offerAugmentation
  split
  · rename_i hcall
    have hparsed : parseCallToolParams s.d.texts req.params = .ok params := by
      have hparsed := ha.parsed
      rw [hcall] at hparsed
      exact hparsed
    apply run_tryAugmentCall hs
    unfold buildCallRunner
    rw [hparsed]
    rfl
  · rfl

/-! ### One execution -/

/-- What the dispatcher answers an execution with: the handler's result, or the requests
it left behind. -/
def executed (s : Host N) (run : Except McpError N × Map) : TaskResult :=
  match run.1 with
  | .ok n => .ok (s.d.wireResult .draft s.capability n)
  | .error e =>
      if e = .inputRequired then
        if run.2.isEmpty then
          .error (mcpToJsonrpcError (.internal "MRTR abort recorded no input requests"))
        else .ok (inputRequiredResult run.2 none)
      else .error (mcpToJsonrpcError e)

theorem run_finishMrtr (s : Host N) (id : RequestId) (subject : Option String)
    (run : Except McpError N × Map) :
    (finishMrtr s.d .draft s.capability id subject (some ⟨run.1, run.2, none⟩)).run
      (handledBy s.env s.outcome) = respond id (s.executed run) := by
  obtain ⟨r, collected⟩ := run
  unfold finishMrtr executed
  rcases r with e | n
  · dsimp only
    by_cases he : e = .inputRequired
    · rw [if_pos ⟨he, rfl⟩, if_pos he]
      by_cases hempty : collected.isEmpty = true
      · rw [if_pos ⟨hempty, rfl⟩, if_pos hempty]
        rfl
      · rw [if_neg fun h => hempty h.1, if_neg hempty, if_neg hempty]
        rfl
    · rw [if_neg fun h => he h.1, if_neg he]
      rfl
  · rfl

/-- A draft call without state reaches the handler with its responses. -/
theorem run_dispatchCapability (hs : s.Serves) (ha : s.Accepts req ctx params) {responses : Map}
    (hfields : mrtrFields req.params = (responses, none)) :
    (dispatchCapability s.d .draft s.capability req ctx req.id).run (handledBy s.env s.outcome) =
      respond req.id (s.executed ((s.handler ctx params).mrtr
        (mrtrHandleOf ctx.clientCapabilities none s.d.strictElicitationKeys responses) s.d.texts
        responses s.d.strictElicitationKeys)) := by
  have hhandle : mrtrHandle (N := N) s.d.strictElicitationKeys .draft req ctx = pure (.ok
      (mrtrHandleOf ctx.clientCapabilities none s.d.strictElicitationKeys responses)) := by
    unfold mrtrHandle
    rw [hfields]
  unfold dispatchCapability
  rw [ha.parsed]
  dsimp only
  rw [if_pos hs.asks, hhandle]
  unfold callHandler
  simp only [Program.pure_eq, Program.ret_bind, if_pos hs.registers]
  rw [Program.run_bind, run_map]
  exact run_finishMrtr s req.id ctx.identity.subject _

theorem run_handleModern (hs : s.Serves) (ha : s.Accepts req ctx params) :
    (handleModern s.d s.capability req).run (handledBy s.env s.outcome) =
      (dispatchCapability s.d .draft s.capability req ctx req.id).run
        (handledBy s.env s.outcome) := by
  unfold handleModern
  rw [ha.level]
  dsimp only
  rw [← ha.context, Program.run_bind, run_offerAugmentation hs ha]

theorem run_handleRequest (hs : s.Serves) (ha : s.Accepts req ctx params) :
    (handleRequest s.d req).run (handledBy s.env s.outcome) =
      .ok ((handleModern s.d s.capability req).run (handledBy s.env s.outcome)) := by
  obtain ⟨-, hdiscover, hping, hinitialize, hof⟩ := method_ne hs.asks
  unfold handleRequest
  rw [extensionFor_eq_none hs ha.method, ha.method, if_neg hdiscover, if_neg hping,
    if_neg hinitialize, hof]
  dsimp only
  unfold withSession
  rw [ha.route]
  exact run_map _ _ _

/-! ### What the client gets -/

/-- The reply, with the server's identity in it where the server is set to tell. -/
def labelled (s : Host N) (reply : JsonRpcMessage) : JsonRpcMessage :=
  if s.d.serverInfoMeta = true then stampServerInfo reply s.d.serverInfo else reply

def stamped (s : Host N) (v : Value) : Value :=
  match s.labelled (okValue (.number 0) v) with
  | .response resp => resp.result.getD v
  | _ => v

theorem labelled_success (s : Host N) (id : RequestId) (v : Value) :
    s.labelled (okValue id v) = okValue id (s.stamped v) := by
  unfold stamped labelled
  by_cases htells : s.d.serverInfoMeta = true
  · simp only [if_pos htells]
    unfold stampServerInfo okValue JsonRpcResponse.success
    cases v with
    | object m =>
        rcases hmeta : Map.get m "_meta" with _ | v
        · simp [hmeta]
        · cases v with
          | object m' =>
              by_cases hheld : Map.containsKey m' Meta.keys.serverInfo = true
              · simp [hmeta, hheld]
              · simp [hmeta, hheld]
          | _ => simp [hmeta]
    | _ => rfl
  · simp only [if_neg htells]
    rfl

/-- Stamping leaves the other members alone. -/
theorem get_stamped (s : Host N) (v : Value) {key : String} (hkey : "_meta" ≠ key) :
    (s.stamped v).get key = v.get key := by
  unfold stamped labelled
  by_cases htells : s.d.serverInfoMeta = true
  · simp only [if_pos htells]
    unfold stampServerInfo okValue JsonRpcResponse.success
    cases v with
    | object m =>
        rcases hmeta : Map.get m "_meta" with _ | v
        · simp [hmeta, Map.get_insert, hkey]
        · cases v with
          | object m' =>
              by_cases hheld : Map.containsKey m' Meta.keys.serverInfo = true
              · simp [hmeta, hheld]
              · simp [hmeta, hheld, Map.get_insert, hkey]
          | _ => simp [hmeta]
    | _ => rfl
  · simp only [if_neg htells]
    rfl

/-- What the client gets of the dispatcher's answer. -/
def delivered (s : Host N) : TaskResult → Except ClientError Value
  | .ok v => .ok (s.stamped v)
  | .error e => .error (.rpc e)

theorem completePending_success (id : RequestId) (v : Value) :
    completePending (received (.success id v)) = .ok v := by
  unfold completePending received JsonRpcResponse.success
  by_cases hv : v = .null
  · simp [hv, Option.filter]
  · simp [hv, Option.filter]

theorem awaited_respond (s : Host N) (id : RequestId) (r : TaskResult) :
    awaited (.ok (some (s.labelled (respond id r)))) = s.delivered r := by
  rcases r with e | v
  · unfold respond labelled
    split
    · rfl
    · rfl
  · unfold respond
    rw [labelled_success]
    exact completePending_success id _

/-- **One request**: the client gets what this round's execution comes to. -/
theorem reply_eq (hs : s.Serves) (ha : s.Accepts req ctx params) {responses : Map}
    (hfields : mrtrFields req.params = (responses, none)) :
    s.reply req = s.delivered (s.executed ((s.handler ctx params).mrtr
      (mrtrHandleOf ctx.clientCapabilities none s.d.strictElicitationKeys responses) s.d.texts
      responses s.d.strictElicitationKeys)) := by
  have hvalid : (JsonRpcMessage.request req).hasValidVersion = true := by
    simpa [JsonRpcMessage.hasValidVersion] using ha.valid
  have hhandle : (handle s.d (.request req)).run (handledBy s.env s.outcome) =
      .ok (some (s.labelled ((dispatchCapability s.d .draft s.capability req ctx req.id).run
        (handledBy s.env s.outcome)))) := by
    unfold handle
    rw [if_pos hvalid]
    dsimp only
    rw [run_whileInFlight]
    unfold handleTracked
    rw [ha.method, if_neg (method_ne hs.asks).1, Program.run_bind,
      run_untilCancelled (handledBy s.env s.outcome) hs.uncancelled,
      run_handleRequest hs ha, run_handleModern hs ha, ha.route]
    unfold labelled
    simp only [and_true]
    rfl
  unfold reply
  rw [hhandle, run_dispatchCapability hs ha hfields]
  exact awaited_respond s req.id _

/-- An execution that ends the handler gives the client its end. -/
theorem reply_of_ended (hs : s.Serves) (ha : s.Accepts req ctx params) {responses : Map}
    (hfields : mrtrFields req.params = (responses, none)) {r : Except McpError N}
    (hexec : (s.handler ctx params).execution s.d.texts ctx.clientCapabilities
      s.d.strictElicitationKeys responses = .inl r) :
    s.reply req = s.delivered (s.executed (r, Map.empty)) := by
  rw [reply_eq hs ha hfields]
  unfold Handler.execution at hexec
  rcases hstop : (s.handler ctx params).stop
    (Ask.ready s.d.texts responses ctx.clientCapabilities) with r' | ⟨a, k⟩
  · rw [hstop] at hexec
    obtain rfl : r' = r := Sum.inl.inj hexec
    rw [mrtr_of_ended hstop]
  · rw [hstop] at hexec
    simp only at hexec
    rw [mrtr_of_asking hstop]
    split at hexec
    · cases hexec
    · -- the key was used again for another question, which strict servers refuse
      rename_i hrefused
      obtain rfl := Sum.inl.inj hexec
      unfold executed
      simp only [if_neg hrefused]

/-- An execution that leaves requests behind gives the client these. -/
theorem reply_of_asking (hs : s.Serves) (ha : s.Accepts req ctx params) {responses : Map}
    (hfields : mrtrFields req.params = (responses, none)) {collected : Map}
    (hexec : (s.handler ctx params).execution s.d.texts ctx.clientCapabilities
      s.d.strictElicitationKeys responses = .inr collected) :
    s.reply req = .ok (s.stamped (inputRequiredResult collected none)) := by
  obtain ⟨a, k, hstop, hrecord⟩ := execution_inr hexec
  have hsome : collected.isEmpty = false := by
    rw [List.isEmpty_eq_false_iff]
    exact execution_ne_nil hexec
  rw [reply_eq hs ha hfields, mrtr_of_asking hstop, hrecord]
  unfold executed
  simp only [if_true, hsome]
  rfl

end Host

/-! ## The parameters of a retry -/

/-- The parameters differ at most in what a retry brings along. -/
def SameEnvelope (m m' : Map) : Prop :=
  ∀ key, key ∉ ["inputResponses", "requestState"] → Map.get m' key = Map.get m key

theorem SameEnvelope.versioned {m m' : Map} (h : SameEnvelope m m') (b : ClientBuilder)
    (version : ProtocolVersion) :
    SameEnvelope (versionedParams b version m) (versionedParams b version m') := by
  intro key hkey
  by_cases hmeta : "_meta" = key
  · subst hmeta
    unfold versionedParams
    rw [h "_meta" hkey]
    split
    · rw [Map.get_insert_self, Map.get_insert_self]
    · exact h "_meta" hkey
  · rw [get_versionedParams hmeta, get_versionedParams hmeta]
    exact h key hkey

/-- A request of the client's with these parameters. -/
def framed (b : ClientBuilder) (method : String) (id : RequestId) (m : Map) : JsonRpcRequest :=
  { id, method, params := some (.object (versionedParams b .draft m)) }

section

variable {s : Host N} {b : ClientBuilder} {method : String} {id id' : RequestId} {m m' : Map}
  {ctx : RequestContext} {params : Params}

theorem parseParams_alike {texts : Texts} {capability : Capability}
    (hasks : capability.asksClient = true) (h : SameEnvelope m m')
    (hparsed : parseParams texts (some (.object m)) capability = .ok params) :
    parseParams texts (some (.object m')) capability = .ok params := by
  have hname : Map.get m' "name" = Map.get m "name" := h "name" (by decide)
  have harguments : Map.get m' "arguments" = Map.get m "arguments" := h "arguments" (by decide)
  have huri : Map.get m' "uri" = Map.get m "uri" := h "uri" (by decide)
  cases capability with
  | callTool => exact parseCallToolParams_object hname harguments hparsed
  | readResource =>
      simp only [parseParams, parseReadResourceParams, parseUriParam, structFields, stringField,
        Option.bind_some] at hparsed ⊢
      rw [huri]
      split at hparsed
      · exact hparsed
      · cases hparsed
  | getPrompt =>
      simp only [parseParams, parseGetPromptParams, structFields, stringField,
        Option.bind_eq_bind, Option.bind_some] at hparsed ⊢
      rw [hname, harguments]
      split at hparsed
      · exact hparsed
      · cases hparsed
  | _ => cases hasks

/-- A retry is taken up as the request itself was. -/
theorem Host.Accepts.alike (hs : s.Serves) (ha : s.Accepts (framed b method id m) ctx params)
    (h : SameEnvelope m m') (id' : RequestId) : s.Accepts (framed b method id' m') ctx params := by
  have hv := h.versioned b .draft
  have hmeta : Map.get (versionedParams b .draft m') "_meta" =
      Map.get (versionedParams b .draft m) "_meta" := hv "_meta" (by decide)
  have hobject : Meta.metaObject (framed b method id' m').params =
      Meta.metaObject (framed b method id m).params :=
    congrArg (fun v : Option Value => v.bind Value.asObject) hmeta
  have hversion : Meta.requestProtocolVersion (framed b method id' m').params =
      Meta.requestProtocolVersion (framed b method id m).params :=
    congrArg (fun v : Option Map => v.bind Meta.extractProtocolVersion) hobject
  have hcontext : buildContext (framed b method id' m') = buildContext (framed b method id m) := by
    unfold buildContext
    rw [hobject, hversion]
  constructor
  · exact ha.valid
  · exact ha.method
  · have hroute := ha.route
    unfold classifyVersion at hroute ⊢
    rw [hversion]
    exact hroute
  · have hlevel : (some (Value.object (versionedParams b .draft m'))).bind (·.get "_meta") =
        (some (Value.object (versionedParams b .draft m))).bind (·.get "_meta") := hmeta
    rw [← ha.level]
    unfold extractLogLevel framed
    rw [hlevel]
  · rw [hcontext]
    exact ha.context
  · exact parseParams_alike hs.asks hv ha.parsed

/-- The first request carries neither responses nor state. -/
theorem mrtrFields_first (b : ClientBuilder) (hresponses : Map.get m "inputResponses" = none)
    (hstate : Map.get m "requestState" = none) :
    mrtrFields (some (.object (versionedParams b .draft m))) = (Map.empty, none) := by
  rw [mrtrFields_object]
  unfold optionField
  rw [get_versionedParams (by decide), get_versionedParams (by decide), hresponses, hstate]
  rfl

/-- A retry carries this round's answers. -/
theorem mrtrFields_answers (b : ClientBuilder) (hstate : Map.get m "requestState" = none)
    (answers : Map) :
    mrtrFields (some (.object (versionedParams b .draft
      (Map.insert m "inputResponses" (.object answers))))) = (answers, none) := by
  rw [mrtrFields_object]
  unfold optionField
  rw [get_versionedParams (by decide), get_versionedParams (by decide), Map.get_insert_self,
    Map.get_insert, if_neg (by decide), hstate]
  rfl

end

/-! ## The client's loop -/

def notConverged : Except ClientError Value :=
  .error (.protocol ("MRTR did not converge after " ++ toString maxMrtrRounds ++ " rounds"))

/-- One round: the call's end, or the answers that the next one starts from. -/
def Host.round (s : Host N) (c : ClientHandler) (ctx : RequestContext) (params : Params)
    (responses : Map) : Except ClientError Value ⊕ Map :=
  match (s.handler ctx params).execution s.d.texts ctx.clientCapabilities
      s.d.strictElicitationKeys responses with
  | .inl r => .inl (s.delivered (s.executed (r, Map.empty)))
  | .inr collected =>
      match answerInputs c collected [] with
      | .error e => .inl (.error e)
      | .ok answers => .inr answers

section

variable {s : Host N} {b : ClientBuilder} {c : ClientHandler} {method : String} {m : Map}
  {ctx : RequestContext} {params : Params} {responses : Map}

theorem keys_answerInputs {requests acc answers : Map}
    (h : answerInputs c requests acc = .ok answers) (key : String) :
    Map.get answers key = none ↔ key ∉ requests.map Prod.fst ∧ Map.get acc key = none := by
  induction requests generalizing acc with
  | nil =>
      obtain rfl : acc = answers := Except.ok.inj h
      exact (and_iff_right List.not_mem_nil).symm
  | cons r requests ih =>
      obtain ⟨k, request⟩ := r
      unfold answerInputs at h
      rcases hanswer : answerInput c request with e | answer
      · rw [hanswer] at h
        cases h
      · rw [hanswer] at h
        rw [ih h, Map.get_insert, List.map_cons, List.mem_cons, not_or]
        by_cases hk : k = key
        · subst hk
          simp
        · rw [if_neg hk, and_assoc]
          exact (and_iff_right (Ne.symm hk)).symm

theorem inputRequired_stamped (s : Host N) (collected : Map) :
    ((s.stamped (inputRequiredResult collected none)).get "resultType").bind Value.asStr =
      some inputRequiredType := by
  rw [Host.get_stamped s _ (by decide)]
  rfl

/-- A round's end is not taken for a request for input. -/
theorem not_inputRequired (hs : s.Serves) {r : Except McpError N} {v : Value}
    (h : s.delivered (s.executed (r, Map.empty)) = .ok v) :
    (v.get "resultType").bind Value.asStr ≠ some inputRequiredType := by
  rcases r with e | n
  · unfold Host.executed at h
    by_cases he : e = .inputRequired
    · simp only [if_pos he] at h
      cases h
    · simp only [if_neg he] at h
      cases h
  · obtain rfl := Except.ok.inj h
    rw [Host.get_stamped s _ (by decide)]
    exact hs.complete n

/-- **The loop**: the client's rounds are attempts, each on the latest answers. -/
theorem exec_mrtrRounds (hs : s.Serves) {id : RequestId}
    (ha : s.Accepts (framed b method id m) ctx params)
    (hstate : Map.get m "requestState" = none)
    (hfields : mrtrFields (some (.object (versionedParams b .draft m))) = (responses, none))
    (n sent : Nat) :
    (mrtrRounds b .draft (some c) method n m).exec s.exchange sent =
      ((attempts (s.round c ctx params) notConverged n responses).1,
        sent + (attempts (s.round c ctx params) notConverged n responses).2) := by
  induction n generalizing m responses sent with
  | zero => rfl
  | succ n ih =>
      have haccepts : s.Accepts (framed b method (.number sent) m) ctx params :=
        ha.alike hs (fun _ _ => rfl) _
      have hreply : (request method (some (.object (versionedParams b .draft m)))).exec s.exchange
          sent = (s.reply (framed b method (.number sent) m), sent + 1) := rfl
      unfold mrtrRounds
      rw [Program.exec_bind, hreply]
      rcases hexec : (s.handler ctx params).execution s.d.texts ctx.clientCapabilities
        s.d.strictElicitationKeys responses with r | collected
      · -- the handler ended
        have hround : s.round c ctx params responses =
            .inl (s.delivered (s.executed (r, Map.empty))) := by
          unfold Host.round
          rw [hexec]
        rw [attempts_done hround, Host.reply_of_ended hs haccepts hfields hexec]
        rcases hend : s.delivered (s.executed (r, Map.empty)) with e | v
        · rfl
        · simp only [if_neg (not_inputRequired hs hend)]
          rfl
      · -- the client answers what was left behind
        rw [Host.reply_of_asking hs haccepts hfields hexec]
        simp only [if_pos (inputRequired_stamped s collected)]
        rw [Host.get_stamped s _ (by decide), get_inputRequests]
        simp only [Option.bind_some, Value.asObject, Option.getD_some]
        rcases hanswers : answerInputs c collected [] with e | answers
        · have hround : s.round c ctx params responses = .inl (.error e) := by
            unfold Host.round
            rw [hexec]
            simp only [hanswers]
          rw [attempts_done hround]
          rfl
        · have hround : s.round c ctx params responses = .inr answers := by
            unfold Host.round
            rw [hexec]
            simp only [hanswers]
          have hretry : retryParams m (s.stamped (inputRequiredResult collected none)) answers =
              Map.insert m "inputResponses" (.object answers) := by
            unfold retryParams
            rw [Host.get_stamped s _ (by decide), get_requestState]
            rfl
          have hsame : SameEnvelope m (Map.insert m "inputResponses" (.object answers)) := by
            intro key hkey
            rw [Map.get_insert, if_neg]
            rintro rfl
            exact hkey List.mem_cons_self
          have hstate' : Map.get (Map.insert m "inputResponses" (.object answers)) "requestState" =
              none := by
            rw [Map.get_insert, if_neg (by decide)]
            exact hstate
          dsimp only
          rw [attempts_again hround, hretry,
            ih (ha.alike hs hsame id) hstate' (mrtrFields_answers b hstate answers) (sent + 1)]
          refine Prod.ext rfl ?_
          exact Nat.add_right_comm sent 1 _

/-- **Starting over**: the third round is the first. -/
theorem round_again {first second : Map} (hfirst : s.round c ctx params Map.empty = .inr first)
    (hsecond : s.round c ctx params first = .inr second) :
    s.round c ctx params second = .inr first := by
  have hanswered : ∀ {held next : Map}, s.round c ctx params held = .inr next → ∃ collected,
      (s.handler ctx params).execution s.d.texts ctx.clientCapabilities s.d.strictElicitationKeys
        held = .inr collected ∧ answerInputs c collected [] = .ok next := by
    intro held next h
    unfold Host.round at h
    split at h
    · cases h
    · rename_i collected hexec
      split at h
      · cases h
      · rename_i answers hanswers
        exact ⟨collected, hexec, hanswers.trans (congrArg Except.ok (Sum.inr.inj h))⟩
  obtain ⟨collected, hexec, hanswers⟩ := hanswered hfirst
  obtain ⟨collected', hexec', hanswers'⟩ := hanswered hsecond
  have hheld : ∀ key ∈ collected.map Prod.fst, Map.get first key ≠ none := by
    intro key hkey hnone
    exact ((keys_answerInputs hanswers key).mp hnone).1 hkey
  have hforeign : ∀ key ∈ collected.map Prod.fst, Map.get second key = none := by
    intro key hkey
    rw [keys_answerInputs hanswers']
    exact ⟨fun hkey' => execution_apart hexec' hheld key hkey' hkey, rfl⟩
  have hagain := execution_again hexec hforeign
  unfold Host.round
  rw [hagain]
  simp only [hanswers]

/-- **Settled by the second request**: a draft call is over after one request or two, or it
fails after sixteen, whatever its handler asks and whatever the client answers. -/
theorem settled_or_exhausted (hs : s.Serves) {id : RequestId}
    (ha : s.Accepts (framed b method id m) ctx params)
    (hresponses : Map.get m "inputResponses" = none) (hstate : Map.get m "requestState" = none) :
    ((mrtrRequest b .draft (some c) method m).exec s.exchange 0).2 ≤ 2 ∨
      (mrtrRequest b .draft (some c) method m).exec s.exchange 0 = (notConverged, 16) := by
  unfold mrtrRequest
  rw [exec_mrtrRounds hs ha hstate (mrtrFields_first b hresponses hstate), Nat.zero_add]
  rcases hfirst : s.round c ctx params Map.empty with out | first
  · left
    rw [maxMrtrRounds, attempts_done hfirst]
    exact Nat.le_succ 1
  · rcases hsecond : s.round c ctx params first with out | second
    · left
      rw [maxMrtrRounds, attempts_again hfirst, attempts_done hsecond]
    · right
      rw [maxMrtrRounds, attempts_again hfirst,
        attempts_of_turns hsecond (round_again hfirst hsecond)]

end

/-! ## Two forms -/

/-- A draft server with tools. -/
def draftServer : VersionDispatcher Unit :=
  { legacyServer with
    texts := sampleTexts
    wire := { legacyServer.wire with
      result := fun _ _ _ => .object [("resultType", .string "complete")] }
    supported := [.draft] }

/-- Its tool has this handler. -/
def draftHost (handler : Handler Unit) : Host Unit where
  d := draftServer
  capability := .callTool
  handler := fun _ _ => handler
  env := sessionsAnswer none

def elicitingClient : ClientBuilder :=
  ⟨⟨"client", none, "1"⟩, .object [("elicitation", .object [])], .auto⟩

/-- A client that accepts every form. -/
def acceptingHandler : ClientHandler where
  elicit := fun _ => ⟨.accept, []⟩
  createMessage := fun _ => .ok .null
  listRoots := .ok .null

def greetParams : Map := [("name", .string "greet")]

def greetRequest : JsonRpcRequest := framed elicitingClient "tools/call" (.number 0) greetParams

theorem draftHost_serves (handler : Handler Unit) : (draftHost handler).Serves where
  asks := rfl
  registers := rfl
  unowned := fun _ hext => absurd hext List.not_mem_nil
  unaugmented := fun _ _ => rfl
  uncancelled := fun _ _ => rfl
  complete := by
    intro n
    show some "complete" ≠ some "input_required"
    decide

theorem classifyVersion_greetRequest :
    classifyVersion greetRequest.params draftServer.supported = .modern := by
  decide +kernel

theorem draftHost_accepts (handler : Handler Unit) :
    (draftHost handler).Accepts greetRequest (buildContext greetRequest)
      (.callTool "greet" []) where
  valid := rfl
  method := rfl
  route := classifyVersion_greetRequest
  level := rfl
  context := rfl
  parsed := rfl

/-- The two forms are asked for in turn, until the rounds are up. -/
theorem two_forms_settled_or_exhausted :
    ((mrtrRequest elicitingClient .draft (some acceptingHandler) "tools/call" greetParams).exec
        (draftHost askNameAndCity).exchange 0).2 ≤ 2 ∨
      (mrtrRequest elicitingClient .draft (some acceptingHandler) "tools/call" greetParams).exec
        (draftHost askNameAndCity).exchange 0 = (notConverged, 16) :=
  settled_or_exhausted (draftHost_serves _) (draftHost_accepts _) rfl rfl

end TurboMcp.System
