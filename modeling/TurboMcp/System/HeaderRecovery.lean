import TurboMcp.Client.HttpReply
import TurboMcp.Client.Tools
import TurboMcp.System.HeaderMirrors

/-!
# Recovering from a header mismatch

A call whose mirrors come from an outdated schema is refused.  The client is to
list the tools, build the mirrors anew, and call once more.  Two things can come
between: a status that hides the server's error from the caller, and a cached
listing that is still fresh.
-/

namespace TurboMcp.System.HeaderRecovery

open TurboMcp.Core TurboMcp.Lib TurboMcp.Protocol TurboMcp.Service TurboMcp.Transport
  TurboMcp.Client TurboMcp.Client.Http

/-! ## Refusals -/

/-- A refusal as the server answers it; `render` writes the body, which names no
request. -/
def refusalOf (render : Rejection → String) (rej : Rejection) : HttpResponse :=
  { status := rej.status, session := none, contentType := some (.ofAscii "application/json"),
    text := .ok (render rej), events := [] }

/-- Only mismatches are refused. -/
def IsMismatch (o : Option Rejection) : Prop :=
  ∀ rej, o = some rej → ∃ detail, rej = headerMismatchRejection detail

theorem isMismatch_none : IsMismatch none := by
  intro rej h
  cases h

theorem isMismatch_some (detail : String) : IsMismatch (some (headerMismatchRejection detail)) := by
  intro rej h
  exact ⟨detail, (Option.some.inj h).symm⟩

theorem IsMismatch.or {o o' : Option Rejection} (h : IsMismatch o) (h' : IsMismatch o') :
    IsMismatch (o.or o') := by
  rcases o with _ | rej
  · exact h'
  · exact h

theorem isMismatch_checkParam (args : Map) (line : String × HeaderValue) :
    IsMismatch (checkParam args line) := by
  unfold checkParam
  split
  · exact isMismatch_none
  · split
    · exact isMismatch_none
    · split
      · exact isMismatch_some _
      · split
        · exact isMismatch_some _
        · split
          · exact isMismatch_some _
          · split
            · exact isMismatch_some _
            · exact isMismatch_none

theorem isMismatch_checkParams (req : JsonRpcRequest) (headers : HeaderMap) :
    IsMismatch (checkParams req headers) := by
  intro rej h
  obtain ⟨args, -, hfound⟩ := Option.bind_eq_some_iff.mp h
  obtain ⟨line, -, hline⟩ := List.exists_of_findSome?_eq_some hfound
  exact isMismatch_checkParam args line rej hline

theorem isMismatch_checkName (req : JsonRpcRequest) (headers : HeaderMap) :
    IsMismatch (checkName req headers) := by
  unfold checkName
  split
  · exact isMismatch_none
  · split
    · exact isMismatch_some _
    · split
      · exact isMismatch_some _
      · split
        · exact isMismatch_some _
        · exact isMismatch_none

theorem isMismatch_checkMethod (req : JsonRpcRequest) (headers : HeaderMap) :
    IsMismatch (checkMethod req headers) := by
  unfold checkMethod
  split
  · exact isMismatch_some _
  · split
    · exact isMismatch_some _
    · exact isMismatch_none

theorem isMismatch_checkVersion (h d : Option String) : IsMismatch (checkVersion h d) := by
  unfold checkVersion
  split
  · split
    · exact isMismatch_some _
    · exact isMismatch_none
  · exact isMismatch_none

/-- Whatever the server's validation refuses, it refuses as a header mismatch. -/
theorem isMismatch_validateRequestHeaders (msg : JsonRpcMessage) (headers : HeaderMap) :
    IsMismatch (validateRequestHeaders msg headers) := by
  unfold validateRequestHeaders
  refine (isMismatch_checkVersion _ _).or ?_
  split
  · split
    · exact isMismatch_some _
    · split
      · exact (isMismatch_checkMethod _ headers).or
          ((isMismatch_checkName _ headers).or (isMismatch_checkParams _ headers))
      · exact isMismatch_none
  · exact isMismatch_none

/-- The request is refused as a header mismatch: by an error response for it, of
whatever status, or the way this server refuses. -/
def RejectsMismatch (decode : String → Except String JsonRpcMessage)
    (render : Rejection → String) (id : RequestId) (resp : HttpResponse) : Prop :=
  (∃ e, CarriesError decode id e resp ∧ e.code = ConnectedClient.headerMismatchCode) ∨
    ∃ detail, resp = refusalOf render (headerMismatchRejection detail)

/-- What the waiting caller gets of a response, with whatever else comes in
meanwhile. -/
def Heard (decode : String → Except String JsonRpcMessage) (statusText : Nat → String)
    (req : JsonRpcRequest) (resp : HttpResponse) (reply : Except ClientError Value) : Prop :=
  ∃ (p : Pending) (others inbound : List JsonRpcMessage), req.id ∈ p.waiting ∧
    p.outcome req.id = none ∧ (∀ frame ∈ others, answerTo req.id frame = none) ∧
    Merges ((postAndPump decode statusText (.request req) (.ok resp)).map (·.frame)) others
      inbound ∧
    (inbound.foldl Pending.route p).outcome req.id = some reply

section

variable {decode : String → Except String JsonRpcMessage} {statusText : Nat → String}
  {req : JsonRpcRequest} {resp : HttpResponse} {reply : Except ClientError Value}

theorem heard_of_success {e : JsonRpcError} (hstatus : resp.isSuccess = true)
    (hcarries : CarriesError decode req.id e resp) (h : Heard decode statusText req resp reply) :
    reply = .error (.rpc e) := by
  obtain ⟨p, others, inbound, hwaiting, hnone, hothers, hinbound, hout⟩ := h
  have hsurvives := (error_survives_iff hcarries hwaiting hnone hothers hinbound).mpr
    (Or.inl hstatus)
  exact Option.some.inj (hout.symm.trans hsurvives)

/-- Of a refusal that is no success the caller hears the status. -/
theorem heard_of_failure (hstatus : resp.isSuccess = false)
    (h : Heard decode statusText req resp reply) :
    reply = .error (.rpc (statusError statusText resp.status)) := by
  obtain ⟨p, others, inbound, hwaiting, hnone, hothers, hinbound, hout⟩ := h
  rw [Pending.outcome_routed hwaiting hnone, answerIn, hinbound.findSome? hothers,
    answer_of_failure hstatus] at hout
  exact (Option.some.inj hout).symm

end

/-! ## Mirrors of a call -/

/-- The mirrors the transport lifts out of a request. -/
def mirrorsOf : Exchange → List (String × String)
  | .request method params =>
      (extractHeaderParams (.request { id := .number 0, method, params })).2
  | .notify _ _ => []

theorem round_trans {params round round' : Map} (h : Round params round)
    (h' : Round round round') : Round params round' := by
  induction h' with
  | first => exact h
  | retry _ result responses ih => exact ih.retry result responses

/-- Every request of a call is one of its rounds. -/
theorem round_of_oneCall {c : ConnectedClient} {method : String} {params : Map}
    {tr : List (Σ e : Exchange, e.Reply)} (h : OneCall c method params tr) :
    ∀ x ∈ tr, ∃ round, Round params round ∧ x.1 = c.sends method round := by
  induction h with
  | last params reply =>
      intro x hx
      obtain rfl := List.mem_singleton.mp hx
      exact ⟨params, .first, rfl⟩
  | @again params result responses tr hasks h ih =>
      intro x hx
      rcases List.mem_cons.mp hx with rfl | hx
      · exact ⟨params, .first, rfl⟩
      · obtain ⟨round, hround, heq⟩ := ih x hx
        exact ⟨round, round_trans (Round.first.retry result responses) hround, heq⟩

/-- **A round's mirrors** are the ones its tool's parameters ask for. -/
theorem mirrorsOf_round {c : ConnectedClient} {call : ToolCall} {table : HeaderTable}
    {round : Map} (hround : Round (call.params c.version table) round)
    (hnodup : ((table.paramsOf call.name).map fun p => McpHeaders.asciiLower p.header).Nodup) :
    mirrorsOf (c.sends "tools/call" round) =
      (mirroredOf (table.paramsOf call.name) call.arguments).map fun e =>
        (e.1, McpHeaders.encodeValue e.2) := by
  obtain ⟨-, -, m, hm, -, hentries⟩ := toolCallParams_spec hnodup call.name call.arguments
  have htask : Map.get (call.params c.version table) "_meta" =
      Map.get (toolCallParams (table.paramsOf call.name) call.name call.arguments) "_meta" := by
    unfold ToolCall.params
    rcases call.task with _ | task
    · rfl
    · simp only
      split
      · rfl
      · rw [Map.get_insert, if_neg (by decide)]
  rw [← htask, ← hround.get (by decide)] at hm
  have hparams : versionedParams c.builder c.version round =
      Map.insert round "_meta" (.object (versionedMeta c.builder c.version m)) := by
    unfold versionedParams
    rw [hm]
  have hmeta : Meta.metaObject (some (.object (versionedParams c.builder c.version round))) =
      some (versionedMeta c.builder c.version m) := by
    rw [hparams]
    simp [Meta.metaObject]
  show mirrorEntries (Meta.entry headerParamsKey
    (some (.object (versionedParams c.builder c.version round)))) = _
  rw [Meta.entry, hmeta, Option.bind_some,
    get_versionedMeta_of_ne c.builder c.version m (by decide) (requestMeta_ne c.builder c.version),
    hentries]

/-! ## The recovery -/

/-- What is performed after a refusal is a listing, and then the call once more
with what the listing taught; its mirrors are those of the tool's schema on the
page. -/
def Recovers (debug : String → String) (c : ConnectedClient) (call : ToolCall)
    (after : List (Σ e : Exchange, Awaited e)) : Prop :=
  ∃ (reply : Except ClientError Value) (t : ClientState) (retry : List (Σ e : Exchange, Awaited e)),
    after = ⟨c.sends "tools/list" (listParams none), (reply, t)⟩ :: retry ∧
    OneCall c "tools/call"
      (call.params c.version (tableAfter debug c.version t.headerParams reply))
      (Program.forget retry) ∧
    ∀ v page tool ps, reply = .ok v → toolsPage c.version v = some page →
      lastNamed page.tools call.name = some tool →
      headerParamsFromSchema debug tool.inputSchema = .ok ps →
      ∀ x ∈ retry, mirrorsOf x.1 =
        (mirroredOf ps call.arguments).map fun e => (e.1, McpHeaders.encodeValue e.2)

section

open Program

variable {debug : String → String} {serdeText : Value → String} {c : ConnectedClient}
  {call : ToolCall} {s : ClientState} {after : List (Σ e : Exchange, Awaited e)}
  {out : Except ClientError Value}

/-- A listing served from the cache is no request, so the next one is the call. -/
theorem not_recovers_of_fresh {v : Value} (hfresh : s.fresh ("tools/list", none) = some v)
    (h : Performs (c.refreshAndRetry debug serdeText call s) after out) :
    ¬ Recovers debug c call after := by
  unfold ConnectedClient.refreshAndRetry at h
  obtain ⟨listing, rest, listed, rfl, hlisting, hrest⟩ := performs_bind.mp h
  obtain ⟨reply, t, hcached, -⟩ := performs_listTools hlisting
  obtain ⟨rfl, -⟩ := cachedRequest_fresh hfresh hcached
  obtain ⟨retry, last, called, rfl, hretry, hlast⟩ := performs_bind.mp hrest
  obtain ⟨-, hrounds⟩ := performs_attempt hretry
  have hone := oneCall_of_performs hrounds
  rintro ⟨reply', t', retry', heq, -, -⟩
  -- the first request of the retry is a `tools/call`
  rcases retry with _ | ⟨x, retry⟩
  · cases hone
  · obtain ⟨round, -, hx⟩ := round_of_oneCall hone ⟨x.1, x.2.1⟩ List.mem_cons_self
    obtain ⟨rfl, -⟩ := List.cons_eq_cons.mp heq
    have hmethod : "tools/list" = "tools/call" := (Exchange.request.inj hx).1
    exact absurd hmethod (by decide)

theorem recovers_of_stale (hfresh : s.fresh ("tools/list", none) = none)
    (h : Performs (c.refreshAndRetry debug serdeText call s) after out) :
    Recovers debug c call after := by
  unfold ConnectedClient.refreshAndRetry at h
  obtain ⟨listing, rest, ⟨listed, t'⟩, rfl, hlisting, hrest⟩ := performs_bind.mp h
  obtain ⟨reply, t, hcached, htable⟩ := performs_listTools hlisting
  obtain ⟨t₁, rfl, ht₁⟩ := cachedRequest_stale hfresh hcached
  obtain ⟨retry, last, ⟨called, t₂⟩, rfl, hretry, hlast⟩ := performs_bind.mp hrest
  obtain ⟨rfl, -⟩ := performs_ret.mp hlast
  obtain ⟨-, hrounds⟩ := performs_attempt hretry
  have hone := oneCall_of_performs hrounds
  change t'.headerParams = _ at htable
  rw [htable, ht₁] at hone
  refine ⟨reply, t₁, retry, ?_, hone, ?_⟩
  · rw [List.append_nil]
    rfl
  · intro v page tool ps hv hpage htool hps x hx
    subst hv
    have hparams : HeaderTable.paramsOf (tableAfter debug c.version t₁.headerParams (.ok v))
        call.name = ps := by
      simp only [tableAfter, hpage]
      rw [paramsOf_learn, htool]
      simp only [hps]
      rfl
    obtain ⟨round, hround, hxround⟩ := round_of_oneCall hone ⟨x.1, x.2.1⟩
      (List.mem_map_of_mem hx)
    have hnodup := (headerParamsFromSchema_spec hps).2
    rw [← hparams] at hnodup ⊢
    change x.1 = _ at hxround
    rw [hxround]
    exact mirrorsOf_round hround hnodup

/-- **Recovery from a mismatch**: the client lists the tools and calls once more
with the mirrors of the page iff the refusal comes with the status of a success
and no first page of the tools is still fresh in the cache; and settling what the
call came to calls nothing more. -/
theorem mismatch_recovered_iff {decode : String → Except String JsonRpcMessage}
    {statusText : Nat → String} {render : Rejection → String} {s₀ : ClientState}
    {before : List (Σ e : Exchange, Awaited e)} {params : Option Value}
    {reply : Except ClientError Value}
    (hcall : Performs (c.callToolWith debug serdeText call s₀)
      (before ++ ⟨.request "tools/call" params, (reply, s)⟩ :: after) out)
    (hfirst : ∀ y ∈ before, ∀ e, answeredWith y = .error (.rpc e) →
      e.code ≠ ConnectedClient.headerMismatchCode)
    {id : RequestId} {resp : HttpResponse} (hrejects : RejectsMismatch decode render id resp)
    (hheard : Heard decode statusText { id, method := "tools/call", params } resp reply) :
    (Recovers debug c call after ↔
      resp.isSuccess = true ∧ s.fresh ("tools/list", none) = none) ∧
    ∀ v, out = .ok v → ∀ rounds settling ended,
      Performs (c.settleToolCall rounds v) settling ended → ∀ x ∈ settling, NoCall x.1 := by
  refine ⟨?_, fun v _ rounds settling ended hsettles =>
    (hsettles.of_wp (noCall_settleToolCall c rounds v)).1⟩
  cases hstatus : resp.isSuccess with
  | false =>
      obtain rfl := heard_of_failure hstatus hheard
      have hother : (statusError statusText resp.status).code ≠
          ConnectedClient.headerMismatchCode := by
        show (-32001 : Int) ≠ -32020
        decide
      obtain rfl := (after_first_failure hcall hfirst rfl).2 hother
      refine iff_of_false ?_ (by simp)
      rintro ⟨reply', t', retry', heq, -, -⟩
      cases heq
  | true =>
      rcases hrejects with ⟨e, hcarries, hcode⟩ | ⟨detail, rfl⟩
      · obtain rfl := heard_of_success hstatus hcarries hheard
        have hrefresh := (after_first_failure hcall hfirst rfl).1 hcode
        change Performs (c.refreshAndRetry debug serdeText call s) after out at hrefresh
        cases hfresh : s.fresh ("tools/list", none) with
        | none => exact iff_of_true (recovers_of_stale hfresh hrefresh) ⟨rfl, rfl⟩
        | some v =>
            refine iff_of_false (not_recovers_of_fresh hfresh hrefresh) ?_
            rintro ⟨-, hnone⟩
            cases hnone
      · -- the server's own refusals are no successes
        cases hstatus

end

/-! ### A tool whose schema has changed -/

def caller : ConnectedClient := { builder := sampleClient, version := .draft, handler := none }

def placeCall : ToolCall := { name := "place", arguments := placeArguments, task := none }

/-- The client learned from a schema that mirrored the nested parameter. -/
def outdated : ClientState :=
  { now := 0, tie := 0, cache := none, headerParams := Dict.empty.insert "place" placeParams }

/-- By now it is the other one. -/
def placesNow : Value :=
  .object [("cacheScope", .string "private"), ("resultType", .string "complete"),
    ("tools", .array [.object [("name", .string "place"), ("inputSchema", .object
      [("type", .string "object"), ("properties", .object
        [("region", .object [("type", .string "string"),
          ("x-mcp-header", .string "Region")])])])]]),
    ("ttlMs", .int 60000)]

def placed : Value := .object [("content", .array []), ("resultType", .string "complete")]

def sentParams (table : HeaderTable) : Option Value :=
  some (.object (versionedParams sampleClient .draft (placeCall.params .draft table)))

def mismatch : JsonRpcError := { code := -32020, message := "header mismatch", data := none }

def mismatchFrame : JsonRpcMessage := .response (.failure (.number 7) mismatch)

def inReply : HttpResponse :=
  { status := 200, session := none, contentType := some (.ofAscii "application/json"),
    text := .ok "mismatch", events := [] }

def serdeSays (_ : Value) : String := "missing field"

/-- The rest of a call that recovers. -/
def recovery : List (Σ e : Exchange, Awaited e) :=
  [⟨caller.sends "tools/list" (listParams none), (.ok placesNow, outdated)⟩,
    ⟨.request "tools/call"
        (sentParams (tableAfter quoted .draft outdated.headerParams (.ok placesNow))),
      (.ok placed, outdated)⟩]

theorem refused_in_reply_recovers : Recovers quoted caller placeCall recovery := by
  have hcall : Program.Performs (caller.callToolWith quoted serdeSays placeCall outdated)
      ([] ++ ⟨.request "tools/call" (sentParams outdated.headerParams),
        (.error (.rpc mismatch), outdated)⟩ :: recovery) (.ok placed) :=
    .call (.call (.call (.ret _)))
  have hcarries : CarriesError (reads "mismatch" mismatchFrame) (.number 7) mismatch inReply :=
    ⟨.failure (.number 7) mismatch, by decide, rfl⟩
  have hrejects : RejectsMismatch (reads "mismatch" mismatchFrame) Rejection.message (.number 7)
      inReply := Or.inl ⟨mismatch, hcarries, rfl⟩
  have hheard : Heard (reads "mismatch" mismatchFrame) statusName
      { id := .number 7, method := "tools/call", params := sentParams outdated.headerParams }
      inReply (.error (.rpc mismatch)) :=
    ⟨{ waiting := [.number 7], outcomes := [] }, [], [mismatchFrame], List.mem_cons_self, rfl,
      by simp, .left .nil, by decide⟩
  exact (mismatch_recovered_iff hcall (by simp) hrejects hheard).1.mpr ⟨rfl, rfl⟩

/-- The `tools/call` of the outdated mirrors, as it is posted. -/
def placePost : Post :=
  (prepare Http.Shared.initial (.request
    { id := .number 7, method := "tools/call", params := sentParams outdated.headerParams })).2

/-- **The status hides the mismatch**: the server refuses the outdated mirrors,
the caller hears of a 400, and nothing is listed or called again. -/
theorem refused_with_400_not_recovered :
    ∃ headers rej reply,
      placePost.headers = some headers ∧
      validateRequestHeaders (Meta.sanitizeInbound placePost.body) headers = some rej ∧
      RejectsMismatch (fun _ => .error "invalid type: null") Rejection.message (.number 7)
        (refusalOf Rejection.message rej) ∧
      Heard (fun _ => .error "invalid type: null") statusName
        { id := .number 7, method := "tools/call", params := sentParams outdated.headerParams }
        (refusalOf Rejection.message rej) reply ∧
      Program.Performs (caller.callToolWith quoted serdeSays placeCall outdated)
        [⟨.request "tools/call" (sentParams outdated.headerParams), (reply, outdated)⟩] reply ∧
      ¬ Recovers quoted caller placeCall [] := by
  have hschema : headerParamsFromSchema quoted placeSchema = .ok placeParams := by decide
  obtain ⟨hvalid, hnodup⟩ := headerParamsFromSchema_spec hschema
  have hcaptured : Captured Http.Shared.initial := by
    intro sid h
    cases h
  have hround : Round (toolCallParams placeParams "place" placeArguments)
      (placeCall.params .draft outdated.headerParams) := .first
  obtain ⟨headers, hheaders, haccepted⟩ :=
    round_validated (b := sampleClient) hvalid hnodup hround hcaptured 7
  obtain ⟨rej, hrej⟩ : ∃ rej, validateRequestHeaders
      (Meta.sanitizeInbound placePost.body) headers = some rej := by
    rw [← Option.ne_none_iff_exists']
    intro hnone
    have hagree := haccepted.mp hnone _ List.mem_cons_self "eu-1" rfl ("region", .string "eu") rfl
    exact absurd hagree (by decide)
  obtain ⟨detail, rfl⟩ := isMismatch_validateRequestHeaders _ _ rej hrej
  refine ⟨headers, _, _, hheaders, hrej, Or.inr ⟨detail, rfl⟩,
    ⟨{ waiting := [.number 7], outcomes := [] }, [], _, List.mem_cons_self, rfl, by simp,
      .left .nil, rfl⟩, .call (.ret _), ?_⟩
  rintro ⟨reply, t, retry, heq, -, -⟩
  cases heq

end TurboMcp.System.HeaderRecovery
