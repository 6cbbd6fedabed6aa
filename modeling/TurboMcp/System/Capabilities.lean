import TurboMcp.System.Contexts
import TurboMcp.System.Routes

/-!
# Declared capabilities in a session

What a client declares at `initialize` is read into structs, written back and
stored; every later request of the session gets what was stored.  On the draft
each request declares for itself, and its handler gets the declaration as it is.
-/

namespace TurboMcp.System

open TurboMcp.Core TurboMcp.Lib TurboMcp.Server TurboMcp.Service
open TurboMcp.Protocol TurboMcp.Protocol.Wire.Legacy

variable {N : Type}

/-! ## A session's declaration -/

/-- What is stored of a declaration. -/
def Stored (declared : Value) (state : SessionState) : Prop :=
  ∃ c, ClientCapabilities.decode declared = some c ∧ state.clientCapabilities = c.encode

/-- A context carries what its session stored, or what its own request declares. -/
def Carried (sid : String) (declared : Value) (supported : List ProtocolVersion)
    (req : JsonRpcRequest) (ctx : RequestContext) : Prop :=
  (classifyVersion req.params supported = .legacy → sessionId req.params = some sid →
    ∃ c, ClientCapabilities.decode declared = some c ∧ ctx.clientCapabilities = some c.encode) ∧
  (classifyVersion req.params supported = .modern →
    ctx.clientCapabilities = Meta.entry Meta.keys.clientCapabilities req.params)

def capabilityTerms (sid : String) (declared : Value) (supported : List ProtocolVersion)
    (f : Frame) : Terms where
  stores := fun sid' state => sid' = sid → Stored declared state
  finds := fun sid' state => sid' = sid → Stored declared state
  hands := fun ctx => ∀ req, f = .message (.request req) → Carried sid declared supported req ctx

/-- Every `initialize` that is started under the session's id declares the same:
an id is minted for one `initialize`. -/
def Declares (sid : String) (declared : Value) (a : Act Frame (Choice N)) : Prop :=
  ∀ req params, a = .spawn (.message (.request req)) →
    req.method = methods.initializeRequest → sessionId req.params = some sid →
    req.params = some params → declaredCapabilities params = some declared

variable {d : VersionDispatcher N} {sid : String} {declared : Value}

theorem stored_of_decode {v : Value} {params : InitializeParams}
    (hdeclared : declaredCapabilities v = some declared)
    (hdecode : decodeInitializeParams v = some params) :
    Stored declared (initialState d params) := by
  obtain ⟨p, hp, rfl⟩ := Option.map_eq_some_iff.mp hdecode
  have hcapabilities := Protocol.Wire.Legacy.decode_declaredCapabilities hp
  rw [hdeclared] at hcapabilities
  exact ⟨p.capabilities, hcapabilities, rfl⟩

theorem meets_capabilityTerms (hwire : d.wire.decodeInitialize = decodeInitializeParams)
    {a : Act Frame (Choice N)} (h : Declares sid declared a) {f : Frame} (ha : a = .spawn f) :
    f.Meets d (capabilityTerms sid declared d.supported) := by
  rintro msg rfl
  cases msg with
  | notification n => trivial
  | response r => trivial
  | request req =>
      constructor
      · rintro sid' v params hmethod hsid hv hdecode rfl
        rw [hwire] at hdecode
        exact stored_of_decode (h req v ha hmethod hsid hv) hdecode
      · intro hmodern level req' hreq
        cases hreq
        refine ⟨fun hlegacy => ?_, fun _ => buildContext_clientCapabilities req⟩
        rw [hmodern] at hlegacy
        cases hlegacy
      · intro hlegacy sid' state hsid hfound req' hreq
        cases hreq
        refine ⟨fun _ hsid' => ?_, fun hmodern => ?_⟩
        · rw [hsid] at hsid'
          obtain ⟨c, hc, hstate⟩ := hfound (Option.some.inj hsid')
          exact ⟨c, hc, by rw [sessionContext_clientCapabilities, hstate]⟩
        · rw [hlegacy] at hmodern
          cases hmodern

/-- **Capabilities reach handlers**: whatever the tasks of the server do and in
whichever order, every context of a session carries its declaration unchanged
just when the structs keep it, and every draft context carries the declaration of
its request. -/
theorem capabilities_reach_iff (d : VersionDispatcher N) (rfc3339 : Nat → String)
    (hwire : d.wire.decodeInitialize = decodeInitializeParams)
    (sessions : SessionStore) (taskCapacity : Nat) {sid : String} {declared : Value}
    (hfresh : sessions.contains sid = false) (hkeys : ClientCapabilities.Distinct declared)
    {tr : List (Act Frame (Choice N) × Server N)}
    (hrun : Run (server d rfc3339).Step (Pool.init (Shared.init sessions taskCapacity)) tr)
    (hdeclares : ∀ x ∈ steps (Pool.init (Shared.init sessions taskCapacity)) tr,
      Declares sid declared x.2.1) :
    ∀ P ∈ states (Pool.init (Shared.init sessions taskCapacity)) tr,
      ∀ n req e k, P.threads.get n = some (.call (.effect e) k) →
        P.born[n]? = some (.message (.request req)) → ∀ ctx ∈ e.contexts,
          (classifyVersion req.params d.supported = .legacy → sessionId req.params = some sid →
            ∃ handed, ctx.clientCapabilities = some handed ∧
              (Alike handed declared ↔ KeptBy ClientCapabilities.fields declared)) ∧
          (classifyVersion req.params d.supported = .modern →
            ctx.clientCapabilities = Meta.entry Meta.keys.clientCapabilities req.params) := by
  intro P hP n req e k hget hborn ctx hctx
  have hsound : Sound (fun sid' state => sid' = sid → Stored declared state)
      (capabilityTerms sid declared d.supported)
      (Pool.init (Shared.init sessions taskCapacity) : Server N) := by
    refine ⟨?_, nofun⟩
    rintro sid' entry hentry rfl
    change sessions.inner.get sid' = some entry at hentry
    rw [SessionStore.contains, hentry] at hfresh
    cases hfresh
  have hP := sound_of_run (F := fun sid' state => sid' = sid → Stored declared state)
    (t := capabilityTerms sid declared d.supported) (fun _ => rfl) (fun _ _ _ h => h)
    (fun _ _ _ h => h) hsound hrun
    (fun x hx f hf => meets_capabilityTerms hwire (hdeclares x hx) hf) P hP
  obtain ⟨hlegacy, hmodern⟩ := Effect.Within.contexts (hP.within hget hborn) ctx hctx req rfl
  refine ⟨fun hroute hsid => ?_, hmodern⟩
  obtain ⟨c, hc, hhanded⟩ := hlegacy hroute hsid
  exact ⟨c.encode, hhanded, ClientCapabilities.alike_iff hkeys hc⟩

/-! ## A capability that is only a marker -/

/-- A server of the legacy version, with the generated decoder. -/
def declaringServer : VersionDispatcher Unit :=
  { legacyServer with
    wire := { legacyServer.wire with decodeInitialize := decodeInitializeParams } }

/-- A client shakes hands and lists the tools, up to where the handler is called. -/
def declaredThenListed (capabilities : Value) : List (Act Frame (Choice Unit)) :=
  .spawn (.message (sessionRequest 1 "initialize" "s"
      [("protocolVersion", .string "2025-11-25"), ("capabilities", capabilities),
        ("clientInfo", .object [("name", .string "client"), ("version", .string "1")])])) ::
    List.replicate 5 (.run 0 (.declined "")) ++
    .spawn (.message (sessionRequest 2 "tools/list" "s" [])) ::
      List.replicate 3 (.run 1 (.declined ""))

/-- The contexts of the effect that a task performs next. -/
def contextsNext (P : Server Unit) (n : Nat) : List RequestContext :=
  match P.threads.get n with
  | some (.call (.effect e) _) => e.contexts
  | _ => []

def handedNext (P : Server Unit) (n : Nat) : List (Option Value) :=
  (contextsNext P n).map (·.clientCapabilities)

/-- Elicitation by URL, declared as the specification does it. -/
def urlElicitation : Value := .object [("elicitation", .object [("url", .object [])])]

/-- Tasks for sampling, with a setting inside each marker. -/
def samplingTasks : Value :=
  .object [("tasks", .object [("requests", .object [("sampling",
    .object [("createMessage", .object [("max", .int 1)])])])]), ("roots", .object [])]

theorem exists_of_contextsNext {P : Server Unit} {n : Nat} {ctx : RequestContext}
    (h : ctx ∈ contextsNext P n) :
    ∃ e k, P.threads.get n = some (.call (.effect e) k) ∧ ctx ∈ e.contexts := by
  unfold contextsNext at h
  split at h
  · rename_i e k hget
    exact ⟨e, k, hget, h⟩
  · cases h

theorem exists_of_handedNext {P : Server Unit} {n : Nat} {v : Value}
    (h : handedNext P n = [some v]) :
    ∃ e k, P.threads.get n = some (.call (.effect e) k) ∧
      ∃ ctx ∈ e.contexts, ctx.clientCapabilities = some v := by
  have hmem : some v ∈ handedNext P n := by
    rw [h]
    exact List.mem_singleton_self _
  obtain ⟨ctx, hctx, hcaps⟩ := List.mem_map.mp hmem
  obtain ⟨e, k, hget, hctx⟩ := exists_of_contextsNext hctx
  exact ⟨e, k, hget, ctx, hctx, hcaps⟩

theorem declares_declaredThenListed {capabilities : Value} :
    ∀ a ∈ declaredThenListed capabilities, Declares "s" capabilities a := by
  intro a ha req params hspawn hmethod hsid hparams
  subst hspawn
  unfold declaredThenListed at ha
  rw [List.mem_append] at ha
  rcases ha with ha | ha
  · rcases List.mem_cons.mp ha with heq | ha
    · cases heq
      cases hparams
      rfl
    · cases List.eq_of_mem_replicate ha
  · rcases List.mem_cons.mp ha with heq | ha
    · cases heq
      exact absurd hmethod (by decide)
    · cases List.eq_of_mem_replicate ha

theorem kept_samplingTasks : KeptBy ClientCapabilities.fields samplingTasks := by
  have hsampling : KeptBy ClientCapabilitiesTasksRequestsSampling.fields
      (.object [("createMessage", .object [("max", .int 1)])]) := by
    refine keptBy_of_entries (List.forall_mem_singleton.mpr ⟨Filled, ?_, nofun⟩)
    exact List.mem_singleton_self _
  have hrequests : KeptBy ClientCapabilitiesTasksRequests.fields
      (.object [("sampling", .object [("createMessage", .object [("max", .int 1)])])]) := by
    refine keptBy_of_entries (List.forall_mem_singleton.mpr ⟨_, ?_, hsampling⟩)
    exact List.mem_cons_of_mem _ (List.mem_singleton_self _)
  have htasks : KeptBy ClientCapabilitiesTasks.fields
      (.object [("requests", .object [("sampling",
        .object [("createMessage", .object [("max", .int 1)])])])]) := by
    refine keptBy_of_entries (List.forall_mem_singleton.mpr ⟨_, ?_, hrequests⟩)
    simp [ClientCapabilitiesTasks.fields]
  have hroots : KeptBy ClientCapabilitiesRoots.fields (.object []) := keptBy_of_entries nofun
  refine keptBy_of_entries (List.forall_mem_cons.mpr ⟨⟨_, ?_, htasks⟩,
    List.forall_mem_singleton.mpr ⟨_, ?_, hroots⟩⟩)
  · simp [ClientCapabilities.fields]
  · simp [ClientCapabilities.fields]

/-- Where the call is about to be made, the handler's context carries the
declaration. -/
theorem capabilities_reach_samplingTasks :
    ∃ P : Server Unit, reach (server declaringServer fun _ => "").step
        (Pool.init (Shared.init (SessionStore.withCapacity 8) 8))
        (declaredThenListed samplingTasks) = some P ∧
      ∃ e k, P.threads.get 1 = some (.call (.effect e) k) ∧
        ∃ ctx ∈ e.contexts, ∃ handed, ctx.clientCapabilities = some handed ∧
          Alike handed samplingTasks := by
  have hnext : (reach (server declaringServer fun _ => "").step
      (Pool.init (Shared.init (SessionStore.withCapacity 8) 8))
      (declaredThenListed samplingTasks)).map (fun P => (handedNext P 1, P.born[1]?)) =
        some ([some (.object [("roots", .object []), ("tasks", .object [("requests", .object
          [("sampling", .object [("createMessage", .object [("max", .int 1)])])])])])],
          some (.message (sessionRequest 2 "tools/list" "s" []))) := by
    decide +kernel
  obtain ⟨P, hreach, hP⟩ := Option.map_eq_some_iff.mp hnext
  obtain ⟨hhanded, hborn⟩ := Prod.mk.inj hP
  obtain ⟨e, k, hget, ctx, hctx, hcaps⟩ := exists_of_handedNext hhanded
  obtain ⟨tr, hrun, hmem, hlabels⟩ := exists_run_of_reach hreach
  have hkeys : ClientCapabilities.Distinct samplingTasks := by
    intro entries hget
    cases hget
  have hreaches := (capabilities_reach_iff declaringServer (fun _ => "") rfl
    (SessionStore.withCapacity 8) 8 rfl hkeys hrun
    (fun x hx => declares_declaredThenListed _ (hlabels x hx)) P hmem 1 _ e k hget hborn ctx hctx).1
  obtain ⟨handed, hhanded, halike⟩ := hreaches (by decide) (by decide)
  exact ⟨P, hreach, e, k, hget, ctx, hctx, handed, hhanded, halike.mpr kept_samplingTasks⟩

/-- **A lost marker**: elicitation by URL is declared by an empty object, and no
context of the session has it. -/
theorem capabilities_lose_urlElicitation :
    ∃ P : Server Unit, reach (server declaringServer fun _ => "").step
        (Pool.init (Shared.init (SessionStore.withCapacity 8) 8))
        (declaredThenListed urlElicitation) = some P ∧
      ∃ e k, P.threads.get 1 = some (.call (.effect e) k) ∧
        ∃ ctx ∈ e.contexts, ∃ handed, ctx.clientCapabilities = some handed ∧
          ¬ Alike handed urlElicitation := by
  have hnext : (reach (server declaringServer fun _ => "").step
      (Pool.init (Shared.init (SessionStore.withCapacity 8) 8))
      (declaredThenListed urlElicitation)).map (handedNext · 1) =
        some [some (.object [("elicitation", .object [])])] := by
    decide +kernel
  obtain ⟨P, hreach, hP⟩ := Option.map_eq_some_iff.mp hnext
  obtain ⟨e, k, hget, ctx, hctx, hcaps⟩ := exists_of_handedNext hP
  refine ⟨P, hreach, e, k, hget, ctx, hctx, _, hcaps, fun halike => ?_⟩
  have helicitation : Option.Rel Alike (some (.object []))
      (some (.object [("url", .object [])])) := alike_object_iff.mp halike "elicitation"
  have hurl : Option.Rel Alike none (some (.object [])) :=
    alike_object_iff.mp (Option.rel_some_some.mp helicitation) "url"
  cases hurl

end TurboMcp.System
