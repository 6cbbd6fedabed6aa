import TurboMcp.Protocol.Tools
import TurboMcp.Server.StateGate

/-!
# Advertised task support

With Tasks enabled `tools/list` states for every tool whether it may run as a
task, filling in page by page what a tool does not declare.  `tools/call` reads
no declaration: it becomes a task when the request asks for one, and runs inline
when it does not.
-/

namespace TurboMcp.Server

open TurboMcp.Core TurboMcp.Lib TurboMcp.Lib.Program TurboMcp.Protocol
open Wire.Legacy (ToolExecution ToolExecutionTaskSupport)

variable {N : Type}

/-! ## What a listing states -/

/-- Whether any tool on the page declares its support. -/
def anyDeclared (tools : List Wire.Legacy.Tool) : Bool :=
  tools.any fun t => (t.execution.bind (·.taskSupport)).isSome

/-- The page that `legacy_list_tools_with_task_support` sends: its tools that
declare nothing are `forbidden` beside one that does, and `optional` otherwise. -/
def withTaskSupport (r : Wire.Legacy.ListToolsResult) : Wire.Legacy.ListToolsResult :=
  let default : ToolExecutionTaskSupport :=
    if anyDeclared r.tools then .forbidden else .optional
  { r with
    tools := r.tools.map fun t =>
      let execution := t.execution.getD { taskSupport := none }
      { t with execution := some { execution with
          taskSupport := some (execution.taskSupport.getD default) } } }

/-- The support a `tools/list` result states, by tool name. -/
def statedSupport (listing : Value) : List (String × ToolExecutionTaskSupport) :=
  (((listing.get "tools").bind Value.asArray).getD []).filterMap fun t => do
    let name ← (t.get "name").bind Value.asStr
    let support ← ((t.get "execution").bind (·.get "taskSupport")).bind
      ToolExecutionTaskSupport.decode
    pure (name, support)

/-- What a page of tools states for each. -/
def pageSupport (tools : List Neutral.Tool) : List (String × ToolExecutionTaskSupport) :=
  let default : ToolExecutionTaskSupport :=
    if tools.any fun t => t.taskSupport.isSome then .forbidden else .optional
  tools.map fun t => (t.name, (t.taskSupport.map Neutral.TaskSupport.toWire).getD default)

theorem anyDeclared_toLegacy (tools : List Neutral.Tool) :
    anyDeclared (tools.map Neutral.Tool.toLegacy) = tools.any fun t => t.taskSupport.isSome := by
  unfold anyDeclared
  rw [List.any_map]
  refine congrArg (List.any tools) (funext fun t => ?_)
  show ((t.toLegacy.execution).bind (·.taskSupport)).isSome = _
  unfold Neutral.Tool.toLegacy
  dsimp only
  rcases t.taskSupport with _ | support
  · rfl
  · rfl

theorem statedSupport_encode (r : Wire.Legacy.ListToolsResult) :
    statedSupport r.encode = r.tools.filterMap fun t =>
      (t.execution.bind (·.taskSupport)).map fun support => (t.name, support) := by
  unfold statedSupport
  have htools : (r.encode.get "tools").bind Value.asArray =
      some (r.tools.map Wire.Legacy.Tool.encode) := by
    unfold Wire.Legacy.ListToolsResult.encode Value.struct encodeVec
    rw [Value.get_object]
    simp [Value.asArray]
  rw [htools, Option.getD_some, List.filterMap_map]
  refine congrArg (List.filterMap · r.tools) (funext fun t => ?_)
  have hname : (t.encode.get "name").bind Value.asStr = some t.name := by
    unfold Wire.Legacy.Tool.encode Value.struct
    rw [Value.get_object]
    simp
  have hexecution : t.encode.get "execution" = t.execution.map ToolExecution.encode := by
    unfold Wire.Legacy.Tool.encode Value.struct
    rw [Value.get_object]
    simp
  show ((t.encode.get "name").bind Value.asStr).bind _ = _
  rw [hname, hexecution]
  rcases t.execution with _ | ⟨_ | support⟩
  · rfl
  · rfl
  · cases support <;> rfl

/-- A page on the wire states what its tools come to. -/
theorem statedSupport_page (page : Neutral.ListToolsResult) :
    statedSupport (withTaskSupport page.toLegacy).encode = pageSupport page.tools := by
  rw [statedSupport_encode]
  unfold withTaskSupport pageSupport Neutral.ListToolsResult.toLegacy
  dsimp only
  rw [anyDeclared_toLegacy, List.map_map, List.filterMap_map, ← List.filterMap_eq_map]
  refine congrArg (List.filterMap · page.tools) (funext fun t => ?_)
  show some (t.name, ((t.toLegacy.execution).getD _).taskSupport.getD _) = _
  rw [Function.comp_apply]
  unfold Neutral.Tool.toLegacy
  dsimp only
  rcases t.taskSupport with _ | support
  · rfl
  · rfl

/-! ## Servers with tools and Tasks -/

/-- A server with Tasks enabled and a tools handler, whose results hold every
page of tools. -/
structure TaskTools (N : Type) where
  d : VersionDispatcher N
  poll : Int
  tasks_eq : d.tasks = some poll
  tools_eq : d.router.tools = true
  /-- The handler's result of a page. -/
  paged : Neutral.ListToolsResult → N
  wire_eq : ∀ page,
    d.wire.listToolsWithTaskSupport (paged page) = (withTaskSupport page.toLegacy).encode

/-- Handlers return `n`; everything else may come out as it will. -/
def HandlerReturns (n : N) : (e : Effect) → Answer N e → Prop
  | .capability _, r => (r : HandlerOutcome N).result = .ok n
  | _, _ => True

/-- Every reply to a `tools/list` that the handler answers with the page states
this support for the tool of this name. -/
def Advertises (s : TaskTools N) (page : Neutral.ListToolsResult) (name : String)
    (support : ToolExecutionTaskSupport) : Prop :=
  ∀ req ctx, wp (fun _ => True) (HandlerReturns (s.paged page))
    (handleLegacy s.d .listTools req ctx)
    fun reply => ∃ listing, reply = okValue req.id listing ∧
      (name, support) ∈ statedSupport listing

/-- What a call of a tool may do under the support it is advertised with. -/
def Allows (support : ToolExecutionTaskSupport) : Effect → Prop
  | .taskCreate _ _ | .taskSpawn _ _ => support ≠ .forbidden
  | .capability c => c.capability = .callTool → support ≠ .required
  | _ => True

/-- The pages that a client may be shown a tool set in. -/
def Paginates (tools : List Neutral.Tool) (pages : List Neutral.ListToolsResult) : Prop :=
  pages.flatMap (·.tools) = tools

/-- **Advertised is enforced**: on every pagination a call does what its tool's
advertised support allows, and a tool is advertised alike on all of them. -/
structure AsAdvertised (s : TaskTools N) (tools : List Neutral.Tool) : Prop where
  calls : ∀ pages, Paginates tools pages → ∀ page ∈ pages, ∀ name support,
    Advertises s page name support → ∀ req ctx args,
      parseCallToolParams s.d.texts req.params = .ok (.callTool name args) →
        wp (Allows support) (fun _ _ => True) (handleLegacy s.d .callTool req ctx) fun _ => True
  pagewise : ∀ pages pages', Paginates tools pages → Paginates tools pages' →
    ∀ page ∈ pages, ∀ page' ∈ pages', ∀ name support support',
      Advertises s page name support → Advertises s page' name support' → support = support'

variable {s : TaskTools N} {req : JsonRpcRequest} {ctx : RequestContext} {name : String}
  {support : ToolExecutionTaskSupport} {tools : List Neutral.Tool}
  {C : Effect → Prop} {A : (e : Effect) → Answer N e → Prop} {Q : JsonRpcMessage → Prop}

/-! ## The listing's reply -/

theorem wp_handleLegacy_of_untouched (hsession : sessionId req.params = none)
    {capability : Capability} :
    wp C A (handleLegacy s.d capability req ctx) Q ↔
      wp C A (legacyCall s.d capability req ctx) Q := by
  unfold handleLegacy touchSession
  rw [hsession]
  exact Iff.rfl

/-- The call of the tools handler that a listing makes. -/
def listCall (req : JsonRpcRequest) (ctx : RequestContext) : CapabilityCall :=
  { capability := .listTools, ctx, client := none, progress := none, log := none,
    params := parseListParams req.params }

/-- What a listing is answered with, by its handler's result. -/
def listReply (d : VersionDispatcher N) (id : RequestId) : Except McpError N → JsonRpcMessage
  | .ok result => okValue id (d.wire.listToolsWithTaskSupport result)
  | .error e => errorResponse id e

theorem wp_legacyCall_listTools :
    wp C A (legacyCall s.d .listTools req ctx) Q ↔
      C (.capability (listCall req ctx)) ∧
        ∀ outcome : HandlerOutcome N, A (.capability (listCall req ctx)) outcome →
          Q (listReply s.d req.id outcome.result) := by
  unfold legacyCall legacyListToolsWithTaskSupport callHandler
  have hreg : s.d.router.registers .listTools = true := s.tools_eq
  rw [s.tasks_eq, if_pos hreg]
  refine and_congr_right fun _ => forall_congr' fun outcome => imp_congr_right fun _ => ?_
  rcases outcome with ⟨e | result, collected, stateOut⟩
  · exact Iff.rfl
  · exact Iff.rfl

/-- A page is advertised as it is stated. -/
theorem advertises_iff {page : Neutral.ListToolsResult} :
    Advertises s page name support ↔ (name, support) ∈ pageSupport page.tools := by
  constructor
  · intro h
    have hwp := h { id := .number 1, method := methods.toolsList, params := none }
      (buildContext { id := .number 1, method := methods.toolsList, params := none })
    rw [wp_handleLegacy_of_untouched rfl, wp_legacyCall_listTools] at hwp
    obtain ⟨listing, heq, hmem⟩ := hwp.2 ⟨.ok (s.paged page), [], none⟩ rfl
    injection heq with hresponse
    injection hresponse with _ _ hresult _
    injection hresult with hlisting
    rw [← hlisting, s.wire_eq, statedSupport_page] at hmem
    exact hmem
  · intro h req ctx
    unfold handleLegacy
    refine wp_seq (Q := fun _ => True) ?_ fun _ _ => ?_
    · exact wp_of_forall (fun _ => trivial) (fun _ => trivial) _
    · rw [wp_legacyCall_listTools]
      refine ⟨trivial, fun outcome houtcome => ?_⟩
      have hresult : outcome.result = .ok (s.paged page) := houtcome
      rw [hresult]
      refine ⟨_, rfl, ?_⟩
      rw [s.wire_eq, statedSupport_page]
      exact h

/-! ## What a call does -/

/-- A plain call of the tool, and one that asks for a task. -/
def callNamed (name : String) (task : Map) : JsonRpcRequest :=
  { id := .number 1, method := methods.toolsCall,
    params := some (.object (("name", .string name) :: task)) }

theorem parse_callNamed {texts : Texts} {task : Map} (htask : Map.get task "arguments" = none) :
    parseCallToolParams texts (callNamed name task).params = .ok (.callTool name []) := by
  unfold parseCallToolParams callNamed structFields stringField Map.get
  dsimp only
  rw [Option.bind_eq_bind, Option.bind_some, Entries.get_cons, if_pos rfl, Entries.get_cons,
    if_neg (by decide : ¬ "name" = "arguments"), show Entries.get task "arguments" = none from htask]
  rfl

/-- A call that asks for a task creates one. -/
theorem not_forbidden_of_taskCall (h : wp (Allows support) (fun _ _ => True)
    (handleLegacy s.d .callTool (callNamed name [("task", .object [])]) ctx) fun _ => True) :
    support ≠ .forbidden := by
  rw [wp_handleLegacy_of_untouched rfl] at h
  unfold legacyCall at h
  rw [s.tasks_eq] at h
  have hcall : Capability.callTool = .callTool ∧
      hasTaskField (callNamed name [("task", .object [])]).params = true := ⟨rfl, rfl⟩
  dsimp only at h
  rw [if_pos hcall] at h
  unfold taskAugmentedCall at h
  rw [show taskTtl (callNamed name [("task", .object [])]).params = some none from rfl,
    parse_callNamed rfl] at h
  dsimp only at h
  rw [if_pos s.tools_eq] at h
  exact h.1

/-- A plain call runs its handler. -/
theorem not_required_of_plainCall (h : wp (Allows support) (fun _ _ => True)
    (handleLegacy s.d .callTool (callNamed name []) ctx) fun _ => True) :
    support ≠ .required := by
  rw [wp_handleLegacy_of_untouched rfl] at h
  unfold legacyCall at h
  rw [s.tasks_eq] at h
  dsimp only at h
  rw [if_neg (by rintro ⟨_, hfield⟩; cases hfield), if_neg nofun] at h
  have hparse : parseCallToolParams s.d.texts (callNamed name []).params =
      .ok (.callTool name []) := parse_callNamed rfl
  have hparams : parseParams s.d.texts (callNamed name []).params .callTool =
      .ok (.callTool name []) := hparse
  unfold dispatchCapability at h
  rw [hparams] at h
  have hreg : s.d.router.registers .callTool = true := s.tools_eq
  dsimp only at h
  rw [if_pos (by decide)] at h
  unfold callHandler at h
  simp only [if_pos hreg] at h
  exact h.1 rfl

/-! ## When advertised is enforced -/

/-- Under a support that leaves both open a call may do anything. -/
theorem allows_optional (e : Effect) : Allows .optional e := by
  cases e <;> first | trivial | exact nofun

/-- A pagination into one page. -/
def onePage (tools : List Neutral.Tool) : Neutral.ListToolsResult :=
  { tools, nextCursor := none, cache := none }

theorem paginates_onePage : Paginates tools [onePage tools] := by
  unfold Paginates onePage
  rw [List.flatMap_cons, List.flatMap_nil, List.append_nil]

/-- What is enforced leaves every tool's call open. -/
theorem AsAdvertised.optional (h : AsAdvertised s tools)
    (hmem : (name, support) ∈ pageSupport tools) : support = .optional := by
  have hallows := h.calls _ paginates_onePage (onePage tools) (List.mem_singleton_self _) name
    support (advertises_iff.mpr hmem)
  have ctx := buildContext (callNamed name [])
  have hforbidden := not_forbidden_of_taskCall (hallows _ ctx [] (parse_callNamed rfl))
  have hrequired := not_required_of_plainCall (hallows _ ctx [] (parse_callNamed rfl))
  cases support with
  | forbidden => exact absurd rfl hforbidden
  | optional => rfl
  | required => exact absurd rfl hrequired

/-- Tools that declare nothing, or all of them `optional`, are stated `optional`
on every page. -/
theorem optional_of_uniform {pages : List Neutral.ListToolsResult}
    (huniform : (∀ t ∈ tools, t.taskSupport = none) ∨
      ∀ t ∈ tools, t.taskSupport = some .optional)
    (hpages : Paginates tools pages) {page : Neutral.ListToolsResult} (hpage : page ∈ pages)
    (hmem : (name, support) ∈ pageSupport page.tools) : support = .optional := by
  have hsub : ∀ t ∈ page.tools, t ∈ tools := by
    intro t ht
    rw [← hpages]
    exact List.mem_flatMap.mpr ⟨page, hpage, ht⟩
  unfold pageSupport at hmem
  obtain ⟨t, ht, heq⟩ := List.mem_map.mp hmem
  rcases huniform with hnone | hoptional
  · have hany : (page.tools.any fun t => t.taskSupport.isSome) = false := by
      rw [List.any_eq_false]
      intro u hu
      rw [hnone u (hsub u hu)]
      decide
    rw [hnone t (hsub t ht), hany] at heq
    exact (congrArg Prod.snd heq).symm
  · rw [hoptional t (hsub t ht)] at heq
    exact (congrArg Prod.snd heq).symm

/-- **When it is enforced**: exactly when no tool declares its support, or each
declares `optional`. -/
theorem asAdvertised_iff (s : TaskTools N) (tools : List Neutral.Tool) :
    AsAdvertised s tools ↔
      (∀ t ∈ tools, t.taskSupport = none) ∨ ∀ t ∈ tools, t.taskSupport = some .optional := by
  constructor
  · intro h
    have hstated : ∀ t ∈ tools, ((t.taskSupport.map Neutral.TaskSupport.toWire).getD
        (if tools.any fun t => t.taskSupport.isSome then .forbidden else .optional)) =
          ToolExecutionTaskSupport.optional :=
      fun t ht => h.optional (List.mem_map.mpr ⟨t, ht, rfl⟩)
    rcases hany : tools.any fun t => t.taskSupport.isSome with _ | _
    · left
      intro t ht
      rw [List.any_eq_false] at hany
      exact Option.not_isSome_iff_eq_none.mp (hany t ht)
    · right
      intro t ht
      have hone := hstated t ht
      rw [hany] at hone
      -- an undeclared tool is stated `forbidden` here
      rcases hsupport : t.taskSupport with _ | support
      · rw [hsupport] at hone
        cases hone
      · rw [hsupport] at hone
        cases support with
        | optional => rfl
        | forbidden => cases hone
        | required => cases hone
  · intro huniform
    constructor
    · intro pages hpages page hpage name support hadv req ctx args _
      obtain rfl := optional_of_uniform huniform hpages hpage (advertises_iff.mp hadv)
      exact wp_of_forall allows_optional (fun _ => trivial) _
    · intro pages pages' hpages hpages' page hpage page' hpage' name support support' hadv hadv'
      rw [optional_of_uniform huniform hpages hpage (advertises_iff.mp hadv),
        optional_of_uniform huniform hpages' hpage' (advertises_iff.mp hadv')]

/-! ## A tool that must not be a task -/

/-- The legacy server with Tasks enabled, its results being pages of tools. -/
def taskTools : TaskTools Neutral.ListToolsResult where
  d :=
    { texts := legacyServer.texts
      wire :=
        { result := fun _ _ page => page.toLegacy.encode
          listToolsWithTaskSupport := fun page => (withTaskSupport page.toLegacy).encode
          cacheDefault := fun policy page => { page with cache := some (page.cache.getD policy) }
          decodeInitialize := legacyServer.wire.decodeInitialize
          decodeListen := fun _ => none }
      router := legacyServer.router
      supported := [.v2025_11_25]
      serverInfo := legacyServer.serverInfo
      instructions := none
      tasks := some 500
      extensions := []
      strictElicitationKeys := false
      serverInfoMeta := false
      cache := legacyServer.cache }
  poll := 500
  tasks_eq := rfl
  tools_eq := rfl
  paged := id
  wire_eq := fun _ => rfl

/-- A tool with no more than a name and its declaration. -/
def bareTool (name : String) (taskSupport : Option Neutral.TaskSupport) : Neutral.Tool :=
  { name, title := none, description := none, inputSchema := .object [], outputSchema := none,
    taskSupport, annotations := none, icons := [], meta_ := [] }

/-- A tool that must not run as a task is run as one all the same. -/
theorem not_asAdvertised_forbidden :
    ¬ AsAdvertised taskTools [bareTool "pay" (some .forbidden)] := by
  intro h
  have hoptional : ToolExecutionTaskSupport.forbidden = .optional :=
    h.optional (List.mem_singleton_self ("pay", _))
  cases hoptional

end TurboMcp.Server
