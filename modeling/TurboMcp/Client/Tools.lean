import TurboMcp.Client.Cache
import TurboMcp.Client.Driving
import TurboMcp.Client.HeaderParams
import TurboMcp.Lib.Traces
import TurboMcp.Protocol.Tools

/-!
# Listing and calling tools

`list_tools` goes through the response cache, and learns from the page it gets
which parameters of each tool are mirrored.  `call_tool_with` builds the mirrors
of a call from what was learned; told that its headers do not match, it lists
the tools and calls once more.

The cache and the table are shared.  What the client's other tasks and its actor
did to them meanwhile shows whenever an answer comes.
-/

namespace TurboMcp.Client

open TurboMcp.Core TurboMcp.Lib TurboMcp.Protocol

/-! ## What a client keeps -/

/-- The parameters to be mirrored, by tool. -/
abbrev HeaderTable := Dict String (List HeaderParam)

def HeaderTable.paramsOf (table : HeaderTable) (name : String) : List HeaderParam :=
  (Dict.get table name).getD []

structure ClientState where
  /-- `Instant::now`, in milliseconds. -/
  now : Nat
  /-- Which of several entries an eviction takes. -/
  tie : Nat
  /-- None where the cache is disabled. -/
  cache : Option ResponseCache
  headerParams : HeaderTable

namespace ClientState

def cached (s : ClientState) (key : CacheKey) : Option Value × ClientState :=
  match s.cache with
  | none => (none, s)
  | some cache => ((cache.get s.now key).1, { s with cache := some (cache.get s.now key).2 })

def stored (s : ClientState) (key : CacheKey) (v : Value) : ClientState :=
  { s with cache := s.cache.map fun cache => cache.store s.now s.tie key v }

/-- The fresh result under a key, if there is one. -/
def fresh (s : ClientState) (key : CacheKey) : Option Value :=
  s.cache.bind fun cache => cache.lookup s.now key

theorem cached_fst (s : ClientState) (key : CacheKey) : (s.cached key).1 = s.fresh key := by
  unfold cached fresh
  rcases s.cache with _ | cache
  · rfl
  · rfl

@[simp] theorem cached_headerParams (s : ClientState) (key : CacheKey) :
    (s.cached key).2.headerParams = s.headerParams := by
  unfold cached
  rcases s.cache with _ | cache
  · rfl
  · rfl

@[simp] theorem stored_headerParams (s : ClientState) (key : CacheKey) (v : Value) :
    (s.stored key v).headerParams = s.headerParams := rfl

end ClientState

/-- A connected client; the `request_meta` it stamps is the builder's. -/
structure ConnectedClient where
  builder : ClientBuilder
  version : ProtocolVersion
  handler : Option ClientHandler

/-- An answer, and the client's state when it comes. -/
abbrev Awaited (e : Exchange) : Type := e.Reply × ClientState

abbrev Calling := Program Exchange Awaited

namespace ConnectedClient

/-- What a typed request sends. -/
def sends (c : ConnectedClient) (method : String) (params : Map) : Exchange :=
  .request method (some (.object (versionedParams c.builder c.version params)))

def cachedRequest (c : ConnectedClient) (method : String) (params : Map) (discriminator : Option String)
    (s : ClientState) : Calling (Except ClientError Value × ClientState) :=
  match s.cached (method, discriminator) with
  | (some hit, s) => pure (.ok hit, s)
  | (none, s) => do
      let (reply, s) ← Program.carry
        (request method (some (.object (versionedParams c.builder c.version params)))) s
      match reply with
      | .error e => pure (.error e, s)
      | .ok v => pure (.ok v, s.stored (method, discriminator) v)

end ConnectedClient

/-! ## Listing -/

def listParams (cursor : Option String) : Map :=
  (cursor.map fun cursor => ("cursor", Value.string cursor)).toList

/-- The page in a result, by the negotiated version's wire shape. -/
def toolsPage (version : ProtocolVersion) (v : Value) : Option Neutral.ListToolsResult :=
  if version = .draft then (Wire.Draft.ListToolsResult.decode v).map Neutral.ListToolsResult.ofDraft
  else (Wire.Legacy.ListToolsResult.decode v).map Neutral.ListToolsResult.ofLegacy

section

-- `Debug` of a string, and what serde says of a value it cannot read
variable (debug : String → String) (serdeText : Value → String)

/-- What one tool's schema does to the table, and whether the tool is kept. -/
def learnTool (table : HeaderTable) (tool : Neutral.Tool) : HeaderTable × Bool :=
  match headerParamsFromSchema debug tool.inputSchema with
  | .ok [] => (Dict.remove table tool.name, true)
  | .ok headers => (Dict.insert table tool.name headers, true)
  | .error _ => (Dict.remove table tool.name, false)

/-- Learn from a page, tool by tool. -/
def learn : HeaderTable → List Neutral.Tool → HeaderTable × List Neutral.Tool
  | table, [] => (table, [])
  | table, tool :: tools =>
      let (table, keep) := learnTool debug table tool
      let (table, kept) := learn table tools
      (table, if keep then tool :: kept else kept)

namespace ConnectedClient

def listTools (c : ConnectedClient) (cursor : Option String) (s : ClientState) :
    Calling (Except ClientError Neutral.ListToolsResult × ClientState) := do
  let (reply, s) ← c.cachedRequest "tools/list" (listParams cursor) cursor s
  match reply with
  | .error e => pure (.error e, s)
  | .ok v =>
      match toolsPage c.version v with
      | none => pure (.error (.decode (serdeText v)), s)
      | some page =>
          let (table, tools) := learn debug s.headerParams page.tools
          pure (.ok { page with tools }, { s with headerParams := table })

end ConnectedClient

/-! ## Calling -/

structure ToolCall where
  name : String
  arguments : Map
  task : Option Value

/-- What `build` makes of a call and the table: the draft has no `task` field. -/
def ToolCall.params (call : ToolCall) (version : ProtocolVersion) (table : HeaderTable) : Map :=
  let params := toolCallParams (table.paramsOf call.name) call.name call.arguments
  match call.task with
  | some task => if version = .draft then params else Map.insert params "task" task
  | none => params

namespace ConnectedClient

/-- One attempt at a call, with the mirrors of its table. -/
def attempt (c : ConnectedClient) (call : ToolCall) (s : ClientState) :
    Calling (Except ClientError Value × ClientState) :=
  Program.carry (mrtrRequest c.builder c.version c.handler "tools/call"
    (call.params c.version s.headerParams)) s

/-- Refresh `tools/list`, and retry; how the listing goes does not matter. -/
def refreshAndRetry (c : ConnectedClient) (call : ToolCall) (s : ClientState) :
    Calling (Except ClientError Value) := do
  let (_, s) ← c.listTools debug serdeText none s
  let (reply, _) ← c.attempt call s
  pure reply

def headerMismatchCode : Int := -32020

/-- `call_tool_with`, as far as the answer that is left to settle. -/
def callToolWith (c : ConnectedClient) (call : ToolCall) (s : ClientState) :
    Calling (Except ClientError Value) := do
  let (reply, s) ← c.attempt call s
  match reply with
  | .error (.rpc e) =>
      if e.code = headerMismatchCode then c.refreshAndRetry debug serdeText call s
      else pure (.error (.rpc e))
  | reply => pure reply

/-- `settle_tool_call`, up to the decoding and as far as `rounds` rounds of
polling. -/
def settleToolCall (c : ConnectedClient) (rounds : Nat) (v : Value) : Drive (Option DriveEnd) :=
  if (v.get "resultType").bind Value.asStr = some "task" then
    driveTask c.builder c.version c.handler rounds v
  else
    match v.get "content", v.get "task" with
    | none, some handle =>
        if (handle.get "taskId").isSome then driveLegacyTask c.builder c.version rounds handle
        else pure (some (.settled (.ok v)))
    | _, _ => pure (some (.settled (.ok v)))

end ConnectedClient

end

/-! ## What a page teaches -/

/-- The last tool of a name on a page. -/
def lastNamed (tools : List Neutral.Tool) (name : String) : Option Neutral.Tool :=
  tools.reverse.find? (·.name = name)

section

variable {debug : String → String}

theorem paramsOf_learnTool (table : HeaderTable) (tool : Neutral.Tool) (name : String) :
    HeaderTable.paramsOf (learnTool debug table tool).1 name =
      if tool.name = name then (headerParamsFromSchema debug tool.inputSchema).toOption.getD []
      else table.paramsOf name := by
  have hremoved : HeaderTable.paramsOf (Dict.remove table tool.name) name =
      if tool.name = name then [] else table.paramsOf name := by
    unfold HeaderTable.paramsOf
    rw [Dict.get_remove]
    split
    · rfl
    · rfl
  unfold learnTool
  split
  · rename_i hnone
    rw [hnone]
    exact hremoved
  · rename_i headers hheaders
    rw [hheaders]
    unfold HeaderTable.paramsOf
    rw [Dict.get_insert]
    split
    · rfl
    · rfl
  · rename_i e herror
    rw [herror]
    exact hremoved

/-- **Last seen wins**: the table has what the last tool of a name asks for, and
is as before for a name that is not on the page. -/
theorem paramsOf_learn (table : HeaderTable) (tools : List Neutral.Tool) (name : String) :
    HeaderTable.paramsOf (learn debug table tools).1 name =
      match lastNamed tools name with
      | some tool => (headerParamsFromSchema debug tool.inputSchema).toOption.getD []
      | none => table.paramsOf name := by
  induction tools generalizing table with
  | nil => rfl
  | cons tool tools ih =>
      have hlast : lastNamed (tool :: tools) name =
          (lastNamed tools name).or (if tool.name = name then some tool else none) := by
        unfold lastNamed
        rw [List.reverse_cons, List.find?_append]
        by_cases hname : tool.name = name
        · rw [List.find?_cons_of_pos (by simpa using hname), if_pos hname]
        · rw [List.find?_cons_of_neg (by simpa using hname), if_neg hname]
          rfl
      show HeaderTable.paramsOf (learn debug (learnTool debug table tool).1 tools).1 name = _
      rw [ih, hlast]
      cases lastNamed tools name with
      | some found => rfl
      | none =>
          show HeaderTable.paramsOf (learnTool debug table tool).1 name = _
          rw [paramsOf_learnTool]
          split
          · rfl
          · rfl

end

/-! ## What a call performs -/

/-- What came back. -/
def outcomeOf : (Σ e : Exchange, e.Reply) → Except ClientError Value
  | ⟨.request _ _, reply⟩ => reply
  | ⟨.notify _ _, reply⟩ => Except.map (fun _ => Value.null) reply

/-- The server asks for input, and the call goes into another round. -/
def asksInput (result : Value) : Prop :=
  (result.get "resultType").bind Value.asStr = some inputRequiredType

/-- One call: a request, and the next round's whenever the server asked for
input. -/
inductive OneCall (c : ConnectedClient) (method : String) :
    Map → List (Σ e : Exchange, e.Reply) → Prop
  | last (params : Map) (reply : Except ClientError Value) :
      OneCall c method params [⟨c.sends method params, reply⟩]
  | again {params : Map} {result : Value} {responses : Map}
      {tr : List (Σ e : Exchange, e.Reply)} (hasks : asksInput result)
      (h : OneCall c method (retryParams params result responses) tr) :
      OneCall c method params
        (⟨c.sends method params, (.ok result : Except ClientError Value)⟩ :: tr)

section

open Program

variable {c : ConnectedClient} {method : String} {params : Map}
  {tr : List (Σ e : Exchange, e.Reply)} {out : Except ClientError Value}

theorem performs_request {params : Option Value}
    {f : Except ClientError Value → Conversation (Except ClientError Value)} :
    Performs (request method params >>= f) tr out ↔
      ∃ (reply : Except ClientError Value) (rest : List (Σ e : Exchange, e.Reply)),
        tr = ⟨.request method params, reply⟩ :: rest ∧ Performs (f reply) rest out :=
  performs_call

/-- What the handler does not answer is no error of the server's. -/
theorem answerInputs_ne_rpc {handler : ClientHandler} {requests responses : Map}
    {e : JsonRpcError} : answerInputs handler requests responses ≠ .error (.rpc e) := by
  induction requests generalizing responses with
  | nil =>
      intro h
      cases h
  | cons entry requests ih =>
      intro h
      unfold answerInputs at h
      split at h
      · cases h
      · exact ih h

/-- A round ends the call, or the next one has what the server asked for. -/
theorem performs_mrtrRounds_succ {handler : Option ClientHandler} {rounds : Nat}
    (h : Performs (mrtrRounds c.builder c.version handler method (rounds + 1) params) tr out) :
    (∃ reply : Except ClientError Value, tr = [⟨c.sends method params, reply⟩] ∧
        ∀ e, out = .error (.rpc e) ↔ reply = .error (.rpc e)) ∨
      ∃ result responses rest,
        tr = ⟨c.sends method params, (.ok result : Except ClientError Value)⟩ :: rest ∧
          asksInput result ∧
          Performs (mrtrRounds c.builder c.version handler method rounds
            (retryParams params result responses)) rest out := by
  unfold mrtrRounds at h
  obtain ⟨reply, rest, rfl, hrest⟩ := performs_request.mp h
  rcases reply with e | result
  · obtain ⟨rfl, rfl⟩ := performs_ret.mp hrest
    exact Or.inl ⟨_, rfl, fun _ => Iff.rfl⟩
  · simp only at hrest
    split at hrest
    · rename_i hasks
      rcases handler with _ | handler
      · obtain ⟨rfl, rfl⟩ := performs_ret.mp hrest
        exact Or.inl ⟨_, rfl, fun e => by simp⟩
      · simp only at hrest
        rcases hanswers : answerInputs handler
          (((result.get "inputRequests").bind Value.asObject).getD []) [] with e | responses
        · rw [hanswers] at hrest
          obtain ⟨rfl, rfl⟩ := performs_ret.mp hrest
          refine Or.inl ⟨_, rfl, fun e' => iff_of_false ?_ (by simp)⟩
          intro heq
          rw [Except.error.injEq] at heq
          exact answerInputs_ne_rpc (hanswers.trans (congrArg Except.error heq))
        · rw [hanswers] at hrest
          exact Or.inr ⟨result, responses, rest, rfl, hasks, hrest⟩
    · obtain ⟨rfl, rfl⟩ := performs_ret.mp hrest
      exact Or.inl ⟨_, rfl, fun e => by simp⟩

theorem oneCall_of_performs {handler : Option ClientHandler} {rounds : Nat}
    (h : Performs (mrtrRounds c.builder c.version handler method (rounds + 1) params) tr out) :
    OneCall c method params tr := by
  induction rounds generalizing params tr with
  | zero =>
      rcases performs_mrtrRounds_succ h with ⟨reply, rfl, -⟩ | ⟨result, responses, rest, rfl, -, h⟩
      · exact .last params reply
      · -- the last round there is
        obtain ⟨rfl, -⟩ := performs_ret.mp h
        exact .last params _
  | succ rounds ih =>
      rcases performs_mrtrRounds_succ h with
        ⟨reply, rfl, -⟩ | ⟨result, responses, rest, rfl, hasks, h⟩
      · exact .last params reply
      · exact .again hasks (ih h)

/-- A call ends with the first request that is not answered with a result, if
there is one; what it fails with is the server's error exactly then. -/
theorem performs_mrtrRounds_end {handler : Option ClientHandler} {rounds : Nat}
    (h : Performs (mrtrRounds c.builder c.version handler method (rounds + 1) params) tr out) :
    ∃ asked x, tr = asked ++ [x] ∧ (∀ y ∈ asked, ∃ v, outcomeOf y = .ok v) ∧
      ∀ e, out = .error (.rpc e) ↔ outcomeOf x = .error (.rpc e) := by
  induction rounds generalizing params tr with
  | zero =>
      rcases performs_mrtrRounds_succ h with ⟨reply, rfl, hout⟩ | ⟨result, responses, rest, rfl, -, h⟩
      · exact ⟨[], _, rfl, by simp, hout⟩
      · obtain ⟨rfl, rfl⟩ := performs_ret.mp h
        refine ⟨[], _, rfl, by simp, fun e => iff_of_false (by simp) ?_⟩
        intro hok
        cases hok
  | succ rounds ih =>
      rcases performs_mrtrRounds_succ h with ⟨reply, rfl, hout⟩ | ⟨result, responses, rest, rfl, -, h⟩
      · exact ⟨[], _, rfl, by simp, hout⟩
      · obtain ⟨asked, x, rfl, hasked, hout⟩ := ih h
        refine ⟨_ :: asked, x, rfl, ?_, hout⟩
        intro y hy
        rcases List.mem_cons.mp hy with rfl | hy
        · exact ⟨result, rfl⟩
        · exact hasked y hy

end

/-! ### After a failure -/

/-- What an awaited answer says. -/
def answeredWith (x : Σ e : Exchange, Awaited e) : Except ClientError Value :=
  outcomeOf ⟨x.1, x.2.1⟩

/-- What a page's answer makes of the table. -/
def tableAfter (debug : String → String) (version : ProtocolVersion) (table : HeaderTable) :
    Except ClientError Value → HeaderTable
  | .error _ => table
  | .ok v =>
      match toolsPage version v with
      | none => table
      | some page => (learn debug table page.tools).1

section

open Program

variable {debug : String → String} {serdeText : Value → String} {c : ConnectedClient}
  {call : ToolCall} {s s' : ClientState} {tr : List (Σ e : Exchange, Awaited e)}
  {out : Except ClientError Value}

theorem cachedRequest_fresh {method : String} {params : Map} {discriminator : Option String}
    {v : Value} (hfresh : s.fresh (method, discriminator) = some v)
    (h : Performs (c.cachedRequest method params discriminator s) tr (out, s')) :
    tr = [] ∧ s'.headerParams = s.headerParams := by
  have hhit := s.cached_fst (method, discriminator)
  have htable := s.cached_headerParams (method, discriminator)
  unfold ConnectedClient.cachedRequest at h
  rcases hcached : s.cached (method, discriminator) with ⟨hit, t⟩
  rw [hcached] at h hhit htable
  rw [hfresh] at hhit
  subst hhit
  obtain ⟨rfl, hout⟩ := performs_ret.mp h
  cases hout
  exact ⟨rfl, htable⟩

theorem cachedRequest_stale {method : String} {params : Map} {discriminator : Option String}
    (hfresh : s.fresh (method, discriminator) = none)
    (h : Performs (c.cachedRequest method params discriminator s) tr (out, s')) :
    ∃ t, tr = [⟨c.sends method params, (out, t)⟩] ∧ s'.headerParams = t.headerParams := by
  have hhit := s.cached_fst (method, discriminator)
  unfold ConnectedClient.cachedRequest at h
  rcases hcached : s.cached (method, discriminator) with ⟨hit, t⟩
  rw [hcached] at h hhit
  rw [hfresh] at hhit
  subst hhit
  obtain ⟨⟨reply, t'⟩, rest, rfl, hrest⟩ := performs_call.mp h
  rcases reply with e | v
  · obtain ⟨rfl, hout⟩ := performs_ret.mp hrest
    cases hout
    exact ⟨t', rfl, rfl⟩
  · obtain ⟨rfl, hout⟩ := performs_ret.mp hrest
    cases hout
    exact ⟨t', rfl, rfl⟩

theorem performs_listTools {cursor : Option String}
    {listed : Except ClientError Neutral.ListToolsResult × ClientState}
    (h : Performs (c.listTools debug serdeText cursor s) tr listed) :
    ∃ reply t, Performs (c.cachedRequest "tools/list" (listParams cursor) cursor s) tr (reply, t) ∧
      listed.2.headerParams = tableAfter debug c.version t.headerParams reply := by
  unfold ConnectedClient.listTools at h
  obtain ⟨first, second, ⟨reply, t⟩, rfl, hfirst, hsecond⟩ := performs_bind.mp h
  rcases reply with e | v
  · obtain ⟨rfl, rfl⟩ := performs_ret.mp hsecond
    rw [List.append_nil]
    exact ⟨_, t, hfirst, rfl⟩
  · simp only at hsecond
    split at hsecond
    · rename_i hpage
      obtain ⟨rfl, rfl⟩ := performs_ret.mp hsecond
      rw [List.append_nil]
      refine ⟨_, t, hfirst, ?_⟩
      simp only [tableAfter, hpage]
    · rename_i page hpage
      obtain ⟨rfl, rfl⟩ := performs_ret.mp hsecond
      rw [List.append_nil]
      refine ⟨_, t, hfirst, ?_⟩
      simp only [tableAfter, hpage]

theorem performs_attempt (h : Performs (c.attempt call s) tr (out, s')) :
    s' = stateAfter s tr ∧
      Performs (mrtrRounds c.builder c.version c.handler "tools/call" maxMrtrRounds
        (call.params c.version s.headerParams)) (forget tr) out := by
  obtain ⟨hperforms, hs⟩ := performs_carry.mp h
  exact ⟨hs, hperforms⟩

/-- **The first failure**: a call whose request fails ends with it, unless the
failure is a header mismatch; then what is left is the recovery, from the state
the failure came in. -/
theorem after_first_failure {before after : List (Σ e : Exchange, Awaited e)}
    {x : Σ e : Exchange, Awaited e} {e : JsonRpcError}
    (h : Performs (c.callToolWith debug serdeText call s) (before ++ x :: after) out)
    (hfirst : ∀ y ∈ before, ∀ e, answeredWith y = .error (.rpc e) →
      e.code ≠ ConnectedClient.headerMismatchCode)
    (hx : answeredWith x = .error (.rpc e)) :
    (e.code = ConnectedClient.headerMismatchCode →
        Performs (c.refreshAndRetry debug serdeText call x.2.2) after out) ∧
      (e.code ≠ ConnectedClient.headerMismatchCode → after = []) := by
  unfold ConnectedClient.callToolWith at h
  obtain ⟨first, second, ⟨reply, s'⟩, htr, hattempt, hsecond⟩ := performs_bind.mp h
  obtain ⟨hstate, hrounds⟩ := performs_attempt hattempt
  obtain ⟨asked, z, hforget, hasked, hout⟩ := performs_mrtrRounds_end hrounds
  obtain ⟨asked', last, rfl, rfl, hlast⟩ := List.map_eq_append_iff.mp hforget
  obtain ⟨z', rest, rfl, rfl, hrest⟩ := List.map_eq_cons_iff.mp hlast
  obtain rfl := List.map_eq_nil_iff.mp hrest
  rw [stateAfter_concat] at hstate
  subst hstate
  change ∀ e, reply = .error (.rpc e) ↔ answeredWith z' = .error (.rpc e) at hout
  rw [List.append_assoc, List.singleton_append] at htr
  have hhere : z' = x → second = after →
      (e.code = ConnectedClient.headerMismatchCode →
          Performs (c.refreshAndRetry debug serdeText call x.2.2) after out) ∧
        (e.code ≠ ConnectedClient.headerMismatchCode → after = []) := by
    rintro rfl rfl
    obtain rfl := (hout e).mpr hx
    simp only at hsecond
    split at hsecond
    · rename_i hcode
      exact ⟨fun _ => hsecond, fun hne => absurd hcode hne⟩
    · rename_i hcode
      refine ⟨fun heq => absurd heq hcode, fun _ => ?_⟩
      exact (performs_ret.mp hsecond).1
  -- where the failed request stands beside the end of the first attempt
  rcases List.append_eq_append_iff.mp htr with ⟨between, rfl, hbetween⟩ | ⟨between, rfl, hbetween⟩
  · rcases between with _ | ⟨y, between⟩
    · obtain ⟨hxz, hafter⟩ := List.cons_eq_cons.mp hbetween
      exact hhere hxz.symm hafter.symm
    · obtain ⟨rfl, -⟩ := List.cons_eq_cons.mp hbetween
      obtain ⟨v, hv⟩ := hasked ⟨x.1, x.2.1⟩ (by simp)
      rw [answeredWith, hv] at hx
      cases hx
  · rcases between with _ | ⟨y, between⟩
    · obtain ⟨hzx, hafter⟩ := List.cons_eq_cons.mp hbetween
      exact hhere hzx hafter
    · obtain ⟨rfl, rfl⟩ := List.cons_eq_cons.mp hbetween
      -- something follows the first attempt, which then was rejected
      exfalso
      rcases reply with (e' | _ | _ | _ | _) | v
      · simp only at hsecond
        split at hsecond
        · rename_i hcode
          exact hfirst z' (by simp) e' ((hout e').mp rfl) hcode
        · exact List.append_ne_nil_of_right_ne_nil _ (List.cons_ne_nil _ _)
            (performs_ret.mp hsecond).1
      all_goals
        exact List.append_ne_nil_of_right_ne_nil _ (List.cons_ne_nil _ _)
          (performs_ret.mp hsecond).1

end

/-! ### Settling calls nothing -/

/-- Anything but a `tools/call`. -/
def NoCall (e : DriveEffect) : Prop := ∀ params, e ≠ .request "tools/call" params

section

open Program

variable {b : ClientBuilder} {version : ProtocolVersion}

theorem noCall_versionedRequest {α : Type} {method : String} {params : Map}
    {f : Except ClientError Value → Drive α} (hmethod : method ≠ "tools/call")
    (h : ∀ reply, wp NoCall (fun _ _ => True) (f reply) fun _ => True) :
    wp NoCall (fun _ _ => True) (versionedRequest b version method params >>= f)
      fun _ => True := by
  refine ⟨?_, fun reply _ => h reply⟩
  intro params' heq
  cases heq
  exact hmethod rfl

theorem noCall_deadlineOf {α : Type} {ttl : Option Value} {f : Option Nat → Drive α}
    (h : ∀ deadline, wp NoCall (fun _ _ => True) (f deadline) fun _ => True) :
    wp NoCall (fun _ _ => True) (deadlineOf ttl >>= f) fun _ => True := by
  unfold deadlineOf
  rcases ttl.bind Value.asU64 with _ | ms
  · exact h none
  · refine ⟨fun params heq => (by cases heq), fun now _ => ?_⟩
    exact h _

theorem noCall_checkDeadline {α : Type} {deadline : Option Nat} {f : Option Nat → Drive α}
    (h : ∀ past, wp NoCall (fun _ _ => True) (f past) fun _ => True) :
    wp NoCall (fun _ _ => True) (checkDeadline deadline >>= f) fun _ => True := by
  rcases deadline with _ | d
  · exact h none
  · refine ⟨fun params heq => (by cases heq), fun now _ => ?_⟩
    exact h _

theorem noCall_pollRounds {look : List String → Value → Drive Looked}
    (hlook : ∀ answered current, wp NoCall (fun _ _ => True) (look answered current) fun _ => True)
    {intervalKey taskId : String} {deadline : Option Nat} (rounds : Nat) (answered : List String)
    (current : Value) :
    wp NoCall (fun _ _ => True)
      (pollRounds b version look intervalKey taskId deadline rounds answered current)
      fun _ => True := by
  induction rounds generalizing answered current with
  | zero => exact trivial
  | succ rounds ih =>
      unfold pollRounds
      refine wp_seq (hlook answered current) fun looked _ => ?_
      rcases looked with result | answered
      · exact trivial
      · refine noCall_checkDeadline fun past => ?_
        rcases past with _ | now
        · refine ⟨fun params heq => (by cases heq), fun _ _ => ?_⟩
          refine noCall_versionedRequest (by decide) fun reply => ?_
          rcases reply with e | current'
          · exact trivial
          · exact ih answered current'
        · exact trivial

theorem noCall_lookAt {handler : Option ClientHandler} {taskId : String} (answered : List String)
    (current : Value) :
    wp NoCall (fun _ _ => True) (lookAt b version handler taskId answered current)
      fun _ => True := by
  unfold lookAt
  split
  · exact trivial
  · exact trivial
  · exact trivial
  · split
    · exact trivial
    · simp only
      split
      · exact trivial
      · exact trivial
      · refine noCall_versionedRequest (by decide) fun reply => ?_
        rcases reply with e | v
        · exact trivial
        · exact trivial
  · exact trivial

theorem noCall_lookAtLegacy {taskId : String} (answered : List String) (current : Value) :
    wp NoCall (fun _ _ => True) (lookAtLegacy b version taskId answered current)
      fun _ => True := by
  unfold lookAtLegacy
  split
  · exact noCall_versionedRequest (by decide) fun reply => trivial
  · exact noCall_versionedRequest (by decide) fun reply => trivial
  · exact trivial
  · exact trivial

/-- **Settling** an answer polls and fetches, and never issues a `tools/call`. -/
theorem noCall_settleToolCall (c : ConnectedClient) (rounds : Nat) (v : Value) :
    wp NoCall (fun _ _ => True) (c.settleToolCall rounds v) fun _ => True := by
  unfold ConnectedClient.settleToolCall
  split
  · unfold driveTask
    split
    · exact trivial
    · exact noCall_deadlineOf fun deadline => noCall_pollRounds noCall_lookAt rounds [] v
  · split
    · split
      · unfold driveLegacyTask
        split
        · exact trivial
        · exact noCall_deadlineOf fun deadline => noCall_pollRounds noCall_lookAtLegacy rounds [] _
      · exact trivial
    · exact trivial

end

end TurboMcp.Client
