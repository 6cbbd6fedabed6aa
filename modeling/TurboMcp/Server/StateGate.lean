import TurboMcp.Server.OneResponse
import TurboMcp.Server.StateSigner

/-!
# The gate before a retry's handler

A draft retry brings `requestState` and `inputResponses` with it.  The state
has to pass verification before the handler runs, and the handler has to see
what was verified, and the responses.  Both members are read together, and
leniently: where either is malformed, or the call is handed to an extension,
neither is looked at.
-/

namespace TurboMcp.Server

open TurboMcp.Core TurboMcp.Lib TurboMcp.Lib.Program

variable {N : Type} {d : VersionDispatcher N} {sg : StateSigner} {now : Nat}
  {capability : Capability} {req : JsonRpcRequest} {ctx : RequestContext}

/-! ## What a retry brings, and what a handler sees of it -/

def paramsMember (req : JsonRpcRequest) (key : String) : Option Value :=
  req.params.bind (·.get key)

/-- The data of a `requestState` that passes verification for this method and
the request's subject. -/
def verifiedState (sg : StateSigner) (now : Nat) (req : JsonRpcRequest) : Option Value :=
  match (paramsMember req "requestState").bind Value.asStr with
  | none => none
  | some token =>
      (sg.verify now req.method (buildContext req).identity.subject token).toOption

/-- The responses that an `inputResponses` member holds. -/
def responsesOf : Value → Option Map
  | .null => some []
  | .object responses => some responses
  | _ => none

def ClientHandle.stateIn (handle : ClientHandle) : Option Value :=
  match handle.mode with
  | .mrtr _ stateIn _ => stateIn
  | _ => none

def ClientHandle.responses (handle : ClientHandle) : Map :=
  match handle.mode with
  | .mrtr responses _ _ => responses
  | _ => []

/-- Every handler that is run, or handed to an extension, has such a client
channel. -/
def HandlerGets (P : Option ClientHandle → Prop) : Effect → Prop
  | .capability c => P c.client
  | .augmentCall _ r => P r.run.client
  | _ => True

/-- States are verified by the signer; everything else may come out as it will. -/
def SignerAnswers (sg : StateSigner) (now : Nat) : (e : Effect) → Answer N e → Prop
  | .stateVerify method subject token, r =>
      (r : Except McpError Value) = sg.verify now method subject token
  | _, _ => True

/-- **The gate**: a request with a state runs its handler only with the state's
verified data, and is refused where it has none; the responses it brings are
seen by the handler, or it is refused. -/
structure Gated (d : VersionDispatcher N) (sg : StateSigner) (now : Nat)
    (capability : Capability) (req : JsonRpcRequest) : Prop where
  state : (paramsMember req "requestState").isSome = true →
    match verifiedState sg now req with
    | some data =>
        wp (HandlerGets fun client => client.bind ClientHandle.stateIn = some data)
          (SignerAnswers sg now) (handleModern d capability req) fun _ => True
    | none =>
        wp (HandlerGets fun _ => False) (SignerAnswers sg now) (handleModern d capability req)
          fun reply => ∃ err, reply = .response (.failure req.id err) ∧ err.code = -32602
  responses : ∀ m, paramsMember req "inputResponses" = some m →
    match responsesOf m with
    | some responses =>
        wp (HandlerGets fun client => ∀ key v, Map.get responses key = some v →
            ((client.map ClientHandle.responses).bind (Map.get · key)) = some v)
          (SignerAnswers sg now) (handleModern d capability req) fun _ => True
    | none =>
        wp (HandlerGets fun _ => False) (SignerAnswers sg now) (handleModern d capability req)
          fun reply => ∃ err, reply = .response (.failure req.id err)

/-! ## Calling the handler -/

/-- The call itself, once the client channel is there. -/
def callWith (d : VersionDispatcher N) (capability : Capability) (req : JsonRpcRequest)
    (ctx : RequestContext) (params : Params) (handle : ClientHandle) :
    Dispatch N JsonRpcMessage := do
  let outcome ← callHandler d.router
    { capability, ctx, client := some handle, progress := progressReporter .draft req,
      log := logSender .draft req ctx d.router.logging, params }
  finishMrtr d .draft capability req.id ctx.identity.subject outcome

variable {P : Option ClientHandle → Prop} {Q : JsonRpcMessage → Prop}
  {A : (e : Effect) → Answer N e → Prop} {params : Params} {handle : ClientHandle}

theorem wp_finishMrtr (subject : Option String) (outcome : Option (HandlerOutcome N)) :
    wp (HandlerGets P) A (finishMrtr d .draft capability req.id subject outcome)
      fun _ => True := by
  unfold finishMrtr
  rcases outcome with _ | outcome
  · trivial
  · dsimp only
    rcases outcome.result with e | result
    · dsimp only
      split
      · split
        · trivial
        · rcases outcome.stateOut with _ | data
          · trivial
          · refine ⟨trivial, ?_⟩
            intro token _
            rcases token with e | token
            · trivial
            · trivial
      · trivial
    · trivial

theorem wp_callWith_registered (hreg : d.router.registers capability = true) :
    wp (HandlerGets P) A (callWith d capability req ctx params handle) (fun _ => True) ↔
      P (some handle) := by
  unfold callWith callHandler
  rw [if_pos hreg]
  constructor
  · intro h
    exact h.1
  · intro h
    exact ⟨h, fun outcome _ => wp_finishMrtr _ (some outcome)⟩

theorem not_wp_callWith (hreg : d.router.registers capability = true) :
    ¬ wp (HandlerGets fun _ => False) A (callWith d capability req ctx params handle) Q := by
  unfold callWith callHandler
  rw [if_pos hreg]
  intro h
  exact h.1

theorem wp_callWith_unregistered (hreg : d.router.registers capability = false) :
    wp (HandlerGets P) A (callWith d capability req ctx params handle) Q ↔
      Q (errorResponse req.id (.methodNotFound capability.method)) := by
  unfold callWith callHandler
  rw [if_neg (by rw [hreg]; decide)]
  exact Iff.rfl

/-! ## The ways of a request -/

/-- Whether the call is offered to an extension before it is dispatched. -/
def offersCall (d : VersionDispatcher N) (capability : Capability) (req : JsonRpcRequest) : Bool :=
  capability = .callTool && d.extensions.any fun ext =>
    ext.augmentsCalls && contextDeclaresExtension (buildContext req) ext.id

/-- Refused for its log level or its parameters, before either member matters. -/
def Refused (d : VersionDispatcher N) (capability : Capability) (req : JsonRpcRequest) : Prop :=
  (∃ e, extractLogLevel d.texts req.params = .error e) ∨
    ∃ e, parseParams d.texts req.params capability = .error e

theorem tryAugmentCall_of_none {extensions : List Extension}
    (h : extensions.any (fun ext => ext.augmentsCalls && contextDeclaresExtension ctx ext.id) =
      false) : tryAugmentCall d req ctx extensions = pure none := by
  induction extensions with
  | nil => rfl
  | cons ext extensions ih =>
      rw [List.any_cons, Bool.or_eq_false_iff] at h
      unfold tryAugmentCall
      rw [if_neg (by rw [h.1]; decide)]
      exact ih h.2

/-- The first extension that is offered the call gets it with a channel of its
task's own. -/
theorem gets_of_tryAugmentCall {extensions : List Extension}
    (hany : extensions.any (fun ext => ext.augmentsCalls && contextDeclaresExtension ctx ext.id) =
      true)
    (hparams : parseCallToolParams d.texts req.params = .ok params)
    {Q : Option JsonRpcMessage → Prop}
    (h : wp (HandlerGets P) A (tryAugmentCall d req ctx extensions) Q) :
    P (some ⟨.taskMediated, ctx.clientCapabilities⟩) := by
  induction extensions with
  | nil => cases hany
  | cons ext extensions ih =>
      unfold tryAugmentCall at h
      by_cases hext : (ext.augmentsCalls && contextDeclaresExtension ctx ext.id) = true
      · rw [if_pos hext] at h
        unfold buildCallRunner at h
        rw [hparams] at h
        exact h.1
      · rw [if_neg hext] at h
        rw [List.any_cons, Bool.eq_false_iff.mpr hext, Bool.false_or] at hany
        exact ih hany h

/-- A request that is offered and not refused is handed on without its state. -/
theorem gets_of_offered (hoffer : offersCall d capability req = true)
    (hrefused : ¬ Refused d capability req)
    (h : wp (HandlerGets P) A (handleModern d capability req) Q) :
    P (some ⟨.taskMediated, (buildContext req).clientCapabilities⟩) := by
  unfold offersCall at hoffer
  rw [Bool.and_eq_true, decide_eq_true_eq] at hoffer
  obtain ⟨rfl, hany⟩ := hoffer
  unfold handleModern at h
  rcases hlevel : extractLogLevel d.texts req.params with e | level
  · exact absurd (Or.inl ⟨e, hlevel⟩) hrefused
  · rcases hparams : parseParams d.texts req.params .callTool with e | params
    · exact absurd (Or.inr ⟨e, hparams⟩) hrefused
    · rw [hlevel] at h
      dsimp only at h
      rw [wp_bind] at h
      unfold offerAugmentation at h
      rw [if_pos rfl] at h
      -- the log level is no part of what an extension is declared by
      have hgets : P (some ⟨.taskMediated,
          ({ buildContext req with logLevel := level } : RequestContext).clientCapabilities⟩) :=
        gets_of_tryAugmentCall hany hparams h
      exact hgets

/-- A request that is neither refused nor offered is dispatched with what its
two members say, read together. -/
theorem wp_handleModern_plain {C : Effect → Prop} {level : Option LogLevel}
    (hasks : capability.asksClient = true)
    (hlevel : extractLogLevel d.texts req.params = .ok level)
    (hparams : parseParams d.texts req.params capability = .ok params)
    (hoffer : offersCall d capability req = false) :
    wp C A (handleModern d capability req) Q ↔
      match mrtrFields req.params with
      | (responses, none) =>
          wp C A (callWith d capability req { buildContext req with logLevel := level } params
            ⟨.mrtr responses none d.strictElicitationKeys,
              (buildContext req).clientCapabilities⟩) Q
      | (responses, some token) =>
          C (.stateVerify req.method (buildContext req).identity.subject token) ∧
          ∀ r : Except McpError Value,
            A (.stateVerify req.method (buildContext req).identity.subject token) r →
            match r with
            | .error e => Q (errorResponse req.id e)
            | .ok state =>
                wp C A (callWith d capability req { buildContext req with logLevel := level } params
                  ⟨.mrtr responses (some state) d.strictElicitationKeys,
                    (buildContext req).clientCapabilities⟩) Q := by
  have hnone : offerAugmentation d capability req { buildContext req with logLevel := level } =
      pure none := by
    unfold offerAugmentation
    split
    · rename_i hcall
      subst hcall
      refine tryAugmentCall_of_none ?_
      unfold offersCall at hoffer
      rw [decide_eq_true rfl, Bool.true_and] at hoffer
      exact hoffer
    · rfl
  unfold handleModern
  rw [hlevel]
  dsimp only
  rw [hnone]
  unfold dispatchCapability
  rw [hparams]
  dsimp only
  rw [if_pos hasks]
  unfold mrtrHandle
  rcases mrtrFields req.params with ⟨responses, _ | token⟩
  · exact Iff.rfl
  · refine and_congr_right fun _ => forall_congr' fun r => imp_congr_right fun _ => ?_
    rcases r with e | state
    · exact Iff.rfl
    · exact Iff.rfl

/-! ## Refusals -/

/-- Every refusal of a request's parameters is `-32602`. -/
def ParamsError (e : McpError) : Prop := (mcpToJsonrpcError e).code = -32602

theorem paramsError_extractLogLevel {e : McpError}
    (h : extractLogLevel d.texts req.params = .error e) : ParamsError e := by
  unfold extractLogLevel at h
  split at h
  · cases h
  · split at h
    · cases h
    · cases h
      rfl

theorem paramsError_parseCallToolParams {e : McpError}
    (h : parseCallToolParams d.texts req.params = .error e) : ParamsError e := by
  unfold parseCallToolParams at h
  split at h
  · cases h
    rfl
  · dsimp only at h
    split at h
    · cases h
    · cases h
      rfl

theorem paramsError_parseReadResourceParams {e : McpError}
    (h : parseReadResourceParams d.texts req.params = .error e) : ParamsError e := by
  unfold parseReadResourceParams parseUriParam at h
  split at h
  · cases h
    rfl
  · split at h
    · cases h
    · cases h
      rfl

theorem paramsError_parseGetPromptParams {e : McpError}
    (h : parseGetPromptParams d.texts req.params = .error e) : ParamsError e := by
  unfold parseGetPromptParams at h
  split at h
  · cases h
    rfl
  · dsimp only at h
    split at h
    · cases h
    · cases h
      rfl

theorem paramsError_parseParams (hasks : capability.asksClient = true) {e : McpError}
    (h : parseParams d.texts req.params capability = .error e) : ParamsError e := by
  cases capability with
  | callTool => exact paramsError_parseCallToolParams h
  | readResource => exact paramsError_parseReadResourceParams h
  | getPrompt => exact paramsError_parseGetPromptParams h
  | _ => cases hasks

theorem paramsError_verify {method token : String} {subject : Option String} {e : McpError}
    (h : sg.verify now method subject token = .error e) : ParamsError e := by
  have hrejected : ParamsError StateSigner.rejected := rfl
  unfold StateSigner.verify at h
  repeat' split at h
  all_goals
    cases h
    try exact hrejected

theorem tryAugmentCall_of_error {e : McpError} {extensions : List Extension}
    (hany : extensions.any (fun ext => ext.augmentsCalls && contextDeclaresExtension ctx ext.id) =
      true)
    (h : parseCallToolParams d.texts req.params = .error e) :
    tryAugmentCall d req ctx extensions = pure (some (errorResponse req.id e)) := by
  induction extensions with
  | nil => cases hany
  | cons ext extensions ih =>
      unfold tryAugmentCall
      by_cases hext : (ext.augmentsCalls && contextDeclaresExtension ctx ext.id) = true
      · rw [if_pos hext]
        unfold buildCallRunner
        rw [h]
        rfl
      · rw [if_neg hext]
        rw [List.any_cons, Bool.eq_false_iff.mpr hext, Bool.false_or] at hany
        exact ih hany

/-- A refused request is answered `-32602`, and nothing else happens. -/
theorem handleModern_of_refused (hasks : capability.asksClient = true)
    (h : Refused d capability req) : ∃ e, ParamsError e ∧
      handleModern d capability req = pure (errorResponse req.id e) := by
  unfold handleModern
  rcases hlevel : extractLogLevel d.texts req.params with e | level
  · exact ⟨e, paramsError_extractLogLevel hlevel, rfl⟩
  · obtain ⟨e, he⟩ := h.resolve_left (by rintro ⟨e, he⟩; rw [hlevel] at he; cases he)
    refine ⟨e, paramsError_parseParams hasks he, ?_⟩
    dsimp only
    unfold offerAugmentation
    split
    · rename_i hcall
      subst hcall
      by_cases hany : d.extensions.any (fun ext => ext.augmentsCalls &&
          contextDeclaresExtension { buildContext req with logLevel := level } ext.id) = true
      · rw [tryAugmentCall_of_error hany he]
        rfl
      · rw [tryAugmentCall_of_none (Bool.eq_false_iff.mpr hany)]
        unfold dispatchCapability
        rw [he]
        rfl
    · unfold dispatchCapability
      rw [he]
      rfl

/-! ## Reading the two members -/

/-- There is nothing to verify and nothing to see. -/
def CarriesNothing (req : JsonRpcRequest) : Prop :=
  paramsMember req "requestState" = none ∧
    ∀ m, paramsMember req "inputResponses" = some m → responsesOf m = some []

/-- Each member that is there has its type; a `null` state has not. -/
def Readable (req : JsonRpcRequest) : Prop :=
  (∀ m, paramsMember req "inputResponses" = some m → (responsesOf m).isSome = true) ∧
    ∀ m, paramsMember req "requestState" = some m → m.asStr.isSome = true

theorem object_of_paramsMember {key : String} {v : Value}
    (h : paramsMember req key = some v) : ∃ m, req.params = some (.object m) := by
  unfold paramsMember at h
  obtain ⟨params, hparams, hget⟩ := Option.bind_eq_some_iff.mp h
  unfold Value.get at hget
  obtain ⟨m, hm, -⟩ := Option.bind_eq_some_iff.mp hget
  exact ⟨m, hparams.trans (congrArg some (Value.asObject_eq_some hm))⟩

theorem carriesNothing_of_not_object (h : ¬ ∃ m, req.params = some (.object m)) :
    CarriesNothing req := by
  constructor
  · by_contra hstate
    obtain ⟨v, hv⟩ := Option.ne_none_iff_exists'.mp hstate
    exact h (object_of_paramsMember hv)
  · intro m hm
    exact absurd (object_of_paramsMember hm) h

theorem paramsMember_object {m : Map} (h : req.params = some (.object m)) (key : String) :
    paramsMember req key = m.get key := by
  unfold paramsMember
  rw [h]
  rfl

/-- What decoding both members gives, one missing or malformed case at a time. -/
theorem mrtrFields_object (m : Map) : mrtrFields (some (.object m)) =
    match optionField m "inputResponses" Value.asObject,
      optionField m "requestState" Value.asStr with
    | some responses, some state => (responses.getD [], state)
    | _, _ => ([], none) := by
  unfold mrtrFields
  rw [Option.bind_some]
  show (Option.bind (some m) _).getD _ = _
  rw [Option.bind_some]
  rcases optionField m "inputResponses" Value.asObject with _ | responses
  · rfl
  · rcases optionField m "requestState" Value.asStr with _ | state
    · rfl
    · rfl

/-- The responses the handler sees, where both members are read. -/
def readResponses (req : JsonRpcRequest) : Map :=
  ((paramsMember req "inputResponses").bind responsesOf).getD []

theorem mrtrFields_of_readable {m : Map} (hparams : req.params = some (.object m))
    (h : Readable req) : mrtrFields req.params =
      (readResponses req, (paramsMember req "requestState").bind Value.asStr) := by
  obtain ⟨hresponses, hstate⟩ := h
  have hreads : optionField m "requestState" Value.asStr =
      some ((m.get "requestState").bind Value.asStr) := by
    rw [paramsMember_object hparams] at hstate
    unfold optionField
    generalize m.get "requestState" = state at hstate ⊢
    rcases state with _ | v
    · rfl
    · have hv := hstate v rfl
      cases v <;> first | rfl | cases hv
  unfold readResponses
  rw [paramsMember_object hparams] at hresponses ⊢
  rw [paramsMember_object hparams, hparams, mrtrFields_object, hreads]
  unfold optionField
  generalize m.get "inputResponses" = responses at hresponses ⊢
  rcases responses with _ | v
  · rfl
  · have hv := hresponses v rfl
    cases v <;> first | rfl | cases hv

/-- Where a member is malformed no state is read, and no response without one. -/
theorem mrtrFields_of_not_readable {m : Map} (hparams : req.params = some (.object m))
    (h : ¬ Readable req) : (mrtrFields req.params).2 = none ∧
      (paramsMember req "requestState" = none → (mrtrFields req.params).1 = []) := by
  unfold Readable at h
  rw [paramsMember_object hparams] at h ⊢
  rw [paramsMember_object hparams] at h
  rw [hparams, mrtrFields_object]
  unfold optionField
  generalize m.get "inputResponses" = responses at h ⊢
  generalize m.get "requestState" = state at h ⊢
  rcases responses with _ | v
  · rcases state with _ | w
    · exact absurd ⟨nofun, nofun⟩ h
    · cases w with
      | string token =>
          refine absurd ⟨nofun, ?_⟩ h
          rintro _ ⟨⟩
          rfl
      | _ => exact ⟨rfl, nofun⟩
  · rcases state with _ | w
    · cases v with
      | null | object responses =>
          refine absurd ⟨?_, nofun⟩ h
          rintro _ ⟨⟩
          rfl
      | _ => exact ⟨rfl, fun _ => rfl⟩
    · cases v with
      | null | object responses =>
          cases w with
          | string token =>
              refine absurd ⟨?_, ?_⟩ h
              · rintro _ ⟨⟩
                rfl
              · rintro _ ⟨⟩
                rfl
          | _ => exact ⟨rfl, nofun⟩
      | _ => exact ⟨rfl, nofun⟩

/-! ## When the gate holds -/

theorem wp_callWith_true (h : P (some handle)) :
    wp (HandlerGets P) A (callWith d capability req ctx params handle) fun _ => True := by
  by_cases hreg : d.router.registers capability = true
  · exact (wp_callWith_registered hreg).mpr h
  · exact (wp_callWith_unregistered (Bool.eq_false_iff.mpr hreg)).mpr trivial

theorem handlerGets_of_forall (h : ∀ client, P client) (e : Effect) : HandlerGets P e := by
  cases e <;> first | exact h _ | trivial

theorem gated_of_carriesNothing (h : CarriesNothing req) :
    Gated d sg now capability req where
  state hstate := by
    rw [h.1] at hstate
    cases hstate
  responses m hm := by
    rw [h.2 m hm]
    refine wp_of_forall (handlerGets_of_forall fun client => ?_) (fun _ => trivial) _
    intro key v hget
    cases hget

theorem gated_of_refused (hasks : capability.asksClient = true)
    (h : Refused d capability req) : Gated d sg now capability req := by
  obtain ⟨e, hcode, heq⟩ := handleModern_of_refused hasks h
  constructor
  · intro _
    rw [heq]
    split
    · trivial
    · exact ⟨_, rfl, hcode⟩
  · intro m _
    rw [heq]
    split
    · trivial
    · exact ⟨_, rfl⟩

/-- Both members are read: the state is verified first, and what the handler
gets is what was read. -/
theorem gated_of_readable (hasks : capability.asksClient = true)
    (hrefused : ¬ Refused d capability req) (hoffer : offersCall d capability req = false)
    (h : Readable req) : Gated d sg now capability req := by
  rcases hlevel : extractLogLevel d.texts req.params with e | level
  · exact absurd (Or.inl ⟨e, hlevel⟩) hrefused
  rcases hparams : parseParams d.texts req.params capability with e | params
  · exact absurd (Or.inr ⟨e, hparams⟩) hrefused
  constructor
  · intro hstate
    obtain ⟨v, hv⟩ := Option.isSome_iff_exists.mp hstate
    obtain ⟨m, hm⟩ := object_of_paramsMember hv
    obtain ⟨token, htoken⟩ := Option.isSome_iff_exists.mp (h.2 v hv)
    have hbind : (paramsMember req "requestState").bind Value.asStr = some token := by
      rw [hv]
      exact htoken
    have hfields := mrtrFields_of_readable hm h
    rw [hbind] at hfields
    unfold verifiedState
    rw [hbind]
    dsimp only
    rcases hverify : sg.verify now req.method (buildContext req).identity.subject token with
      e | data
    · show wp _ _ _ _
      rw [wp_handleModern_plain hasks hlevel hparams hoffer, hfields]
      refine ⟨trivial, ?_⟩
      intro r hr
      obtain rfl : r = .error e := Eq.trans hr hverify
      exact ⟨_, rfl, paramsError_verify hverify⟩
    · show wp _ _ _ _
      rw [wp_handleModern_plain hasks hlevel hparams hoffer, hfields]
      refine ⟨trivial, ?_⟩
      intro r hr
      obtain rfl : r = .ok data := Eq.trans hr hverify
      exact wp_callWith_true rfl
  · intro v hv
    obtain ⟨m, hm⟩ := object_of_paramsMember hv
    obtain ⟨responses, hresponses⟩ := Option.isSome_iff_exists.mp (h.1 v hv)
    have hread : readResponses req = responses := by
      unfold readResponses
      rw [hv, Option.bind_some, hresponses]
      rfl
    have hfields := mrtrFields_of_readable hm h
    rw [hread] at hfields
    rw [hresponses]
    show wp _ _ _ _
    rw [wp_handleModern_plain hasks hlevel hparams hoffer, hfields]
    rcases (paramsMember req "requestState").bind Value.asStr with _ | token
    · exact wp_callWith_true fun key v hget => hget
    · refine ⟨trivial, ?_⟩
      intro r _
      rcases r with e | state
      · trivial
      · exact wp_callWith_true fun key v hget => hget

/-- A malformed member leaves the handler with nothing; only a missing handler
keeps the gate then. -/
theorem gated_iff_of_not_readable (hasks : capability.asksClient = true)
    (hrefused : ¬ Refused d capability req) (hoffer : offersCall d capability req = false)
    (hnothing : ¬ CarriesNothing req) (h : ¬ Readable req) :
    Gated d sg now capability req ↔ d.router.registers capability = false ∧
      (paramsMember req "requestState" = none ∨ (verifiedState sg now req).isSome = true) := by
  rcases hlevel : extractLogLevel d.texts req.params with e | level
  · exact absurd (Or.inl ⟨e, hlevel⟩) hrefused
  rcases hparams : parseParams d.texts req.params capability with e | params
  · exact absurd (Or.inr ⟨e, hparams⟩) hrefused
  obtain ⟨m, hm⟩ : ∃ m, req.params = some (.object m) := by
    by_contra hobject
    exact hnothing (carriesNothing_of_not_object hobject)
  obtain ⟨hstate, hresponses⟩ := mrtrFields_of_not_readable hm h
  have hplain {C : Effect → Prop} {Q : JsonRpcMessage → Prop} :
      wp C (SignerAnswers sg now) (handleModern d capability req) Q ↔
        wp C (SignerAnswers sg now) (callWith d capability req
          { buildContext req with logLevel := level } params
          ⟨.mrtr (mrtrFields req.params).1 none d.strictElicitationKeys,
            (buildContext req).clientCapabilities⟩) Q := by
    rw [wp_handleModern_plain hasks hlevel hparams hoffer]
    generalize mrtrFields req.params = fields at hstate ⊢
    obtain ⟨responses, state⟩ := fields
    obtain rfl : state = none := hstate
    exact Iff.rfl
  constructor
  · rintro ⟨hgstate, hgresponses⟩
    have hreg : d.router.registers capability = false := by
      by_contra hreg
      rw [Bool.not_eq_false] at hreg
      rcases hs : paramsMember req "requestState" with _ | v
      · obtain ⟨v, hv, hnone⟩ : ∃ v, paramsMember req "inputResponses" = some v ∧
            responsesOf v = none := by
          by_contra hall
          refine h ⟨fun v hv => ?_, fun v hv => ?_⟩
          · rw [Option.isSome_iff_ne_none]
            exact fun hnone => hall ⟨v, hv, hnone⟩
          · rw [hs] at hv
            cases hv
        have hg := hgresponses v hv
        rw [hnone] at hg
        exact not_wp_callWith hreg (hplain.mp hg)
      · have hg := hgstate (by rw [hs]; rfl)
        rcases hverify : verifiedState sg now req with _ | data
        · rw [hverify] at hg
          exact not_wp_callWith hreg (hplain.mp hg)
        · rw [hverify] at hg
          cases (wp_callWith_registered hreg).mp (hplain.mp hg)
    refine ⟨hreg, ?_⟩
    rcases hs : paramsMember req "requestState" with _ | v
    · exact Or.inl rfl
    · right
      have hg := hgstate (by rw [hs]; rfl)
      rcases hverify : verifiedState sg now req with _ | data
      · -- a missing handler is not an invalid state
        rw [hverify] at hg
        obtain ⟨err, heq, hcode⟩ := (wp_callWith_unregistered hreg).mp (hplain.mp hg)
        cases heq
        cases hcode
      · rfl
  · rintro ⟨hreg, hverified⟩
    constructor
    · intro hs
      obtain ⟨data, hdata⟩ := Option.isSome_iff_exists.mp
        (hverified.resolve_left (Option.isSome_iff_ne_none.mp hs))
      rw [hdata]
      exact hplain.mpr ((wp_callWith_unregistered hreg).mpr trivial)
    · intro v _
      split
      · exact hplain.mpr ((wp_callWith_unregistered hreg).mpr trivial)
      · exact hplain.mpr ((wp_callWith_unregistered hreg).mpr ⟨_, rfl⟩)

/-- A call that is handed to an extension keeps neither member. -/
theorem not_gated_of_offered (hrefused : ¬ Refused d capability req)
    (hoffer : offersCall d capability req = true) (hnothing : ¬ CarriesNothing req) :
    ¬ Gated d sg now capability req := by
  rintro ⟨hgstate, hgresponses⟩
  by_cases hs : paramsMember req "requestState" = none
  · have hsome : ¬ ∀ m, paramsMember req "inputResponses" = some m → responsesOf m = some [] :=
      fun hall => hnothing ⟨hs, hall⟩
    push Not at hsome
    obtain ⟨v, hv, hne⟩ := hsome
    have hg := hgresponses v hv
    rcases hresponses : responsesOf v with _ | responses
    · rw [hresponses] at hg
      exact gets_of_offered hoffer hrefused hg
    · rw [hresponses] at hg hne
      rcases responses with _ | ⟨e, responses⟩
      · exact hne rfl
      · have hget := gets_of_offered hoffer hrefused hg e.1 e.2
          (by unfold Map.get; rw [Entries.get_cons, if_pos rfl])
        cases hget
  · have hg := hgstate (Option.isSome_iff_ne_none.mpr hs)
    rcases hverify : verifiedState sg now req with _ | data
    · rw [hverify] at hg
      exact gets_of_offered hoffer hrefused hg
    · rw [hverify] at hg
      cases gets_of_offered hoffer hrefused hg

/-- **When the gate holds**: exactly when there is nothing to guard, the
request is refused, or it stays with the server and both members have their
types; without a handler only an unverifiable state is in the way. -/
theorem gated_iff (d : VersionDispatcher N) (sg : StateSigner) (now : Nat)
    (capability : Capability) (req : JsonRpcRequest) (hasks : capability.asksClient = true) :
    Gated d sg now capability req ↔
      CarriesNothing req ∨ Refused d capability req ∨
        (offersCall d capability req = false ∧
          (Readable req ∨ (d.router.registers capability = false ∧
            (paramsMember req "requestState" = none ∨
              (verifiedState sg now req).isSome = true)))) := by
  by_cases hnothing : CarriesNothing req
  · exact iff_of_true (gated_of_carriesNothing hnothing) (Or.inl hnothing)
  by_cases hrefused : Refused d capability req
  · exact iff_of_true (gated_of_refused hasks hrefused) (Or.inr (Or.inl hrefused))
  rw [or_iff_right hnothing, or_iff_right hrefused]
  by_cases hoffer : offersCall d capability req = true
  · refine iff_of_false (not_gated_of_offered hrefused hoffer hnothing) ?_
    rintro ⟨hfalse, -⟩
    rw [hoffer] at hfalse
    cases hfalse
  · rw [Bool.not_eq_true] at hoffer
    rw [and_iff_right hoffer]
    by_cases hread : Readable req
    · exact iff_of_true (gated_of_readable hasks hrefused hoffer hread) (Or.inl hread)
    · rw [or_iff_right hread]
      exact gated_iff_of_not_readable hasks hrefused hoffer hnothing hread

/-- A retry whose state nobody signed, beside responses that are no object. -/
def forgedRetry (responses : Value) : JsonRpcRequest :=
  { id := .number 1
    method := methods.toolsCall
    params := some (.object [("name", .string "pay"), ("inputResponses", responses),
      ("requestState", .string "forged")]) }

theorem gated_iff_object :
    Gated legacyServer StateSigner.sampleSigner 0 .callTool (forgedRetry (.object [])) := by
  refine (gated_iff legacyServer StateSigner.sampleSigner 0 .callTool _ (by decide)).mpr
    (Or.inr (Or.inr ⟨by decide, Or.inl ⟨?_, ?_⟩⟩))
  · rintro _ ⟨⟩
    rfl
  · rintro _ ⟨⟩
    rfl

/-- The handler runs, and nothing was verified. -/
theorem not_gated_text :
    ¬ Gated legacyServer StateSigner.sampleSigner 0 .callTool (forgedRetry (.string "x")) := by
  intro h
  have hverify : verifiedState StateSigner.sampleSigner 0 (forgedRetry (.string "x")) = none := by
    decide
  have hstate := h.state (by decide)
  rw [hverify] at hstate
  exact hstate.1

end TurboMcp.Server
