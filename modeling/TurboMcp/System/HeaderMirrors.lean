import TurboMcp.Client.Http
import TurboMcp.Client.Input

/-!
# Mirrored tool calls

A `tools/call` of the typed client carries its mirror headers by way of a
signal in `_meta`; the server validates them against the body that is left.
The client takes a header's value where the schema says, the server looks for
an argument of the header's name.
-/

namespace TurboMcp.System

open TurboMcp.Core TurboMcp.Lib TurboMcp.Service TurboMcp.Transport TurboMcp.Client
  TurboMcp.Client.Http

/-! ## Header names in lower case -/

theorem toLower_of_not_upper {c : Char} (h : ¬ (c.val ≥ 'A'.val ∧ c.val ≤ 'Z'.val)) :
    c.toLower = c := by
  unfold Char.toLower
  rw [dif_neg h]

theorem toLower_toLower (c : Char) : c.toLower.toLower = c.toLower := by
  by_cases h : c.val ≥ 'A'.val ∧ c.val ≤ 'Z'.val
  · have hlow : c.toLower.val = c.val + 32 := by
      unfold Char.toLower
      rw [dif_pos h]
      rfl
    have hlower : 65 ≤ c.val.toNat := UInt32.le_iff_toNat_le.mp h.1
    have hupper : c.val.toNat ≤ 90 := UInt32.le_iff_toNat_le.mp h.2
    refine toLower_of_not_upper fun hagain => ?_
    have hle : c.toLower.val.toNat ≤ 90 := UInt32.le_iff_toNat_le.mp hagain.2
    rw [hlow, UInt32.toNat_add, show (32 : UInt32).toNat = 32 from rfl] at hle
    omega
  · rw [toLower_of_not_upper h, toLower_of_not_upper h]

theorem asciiLower_idem (s : String) :
    McpHeaders.asciiLower (McpHeaders.asciiLower s) = McpHeaders.asciiLower s := by
  unfold McpHeaders.asciiLower
  rw [String.toList_ofList, List.map_map]
  congr 1
  exact List.map_congr_left fun c _ => toLower_toLower c

theorem argumentFor_asciiLower (args : Map) (name : String) :
    argumentFor args (McpHeaders.asciiLower name) = argumentFor args name := by
  simp [argumentFor, McpHeaders.eqIgnoreAsciiCase, asciiLower_idem]

theorem asciiLower_paramName (h : String) :
    McpHeaders.asciiLower ("Mcp-Param-" ++ h) =
      headerNames.paramStart ++ McpHeaders.asciiLower h := by
  have hstart : "Mcp-Param-".toList.map Char.toLower = headerNames.paramStart.toList := by decide
  unfold McpHeaders.asciiLower
  rw [String.toList_append, List.map_append, hstart, String.ofList_append, String.ofList_toList]

theorem paramOf_param (name : String) : paramOf (headerNames.paramStart ++ name) = some name := by
  unfold paramOf
  simp [String.toList_append]

theorem paramName_ne {name other : String} (h : paramOf other = none) :
    headerNames.paramStart ++ name ≠ other := by
  rintro rfl
  rw [paramOf_param] at h
  cases h

theorem isValidHeaderName_append {s t : String} (hs : s.toList.all McpHeaders.isTokenChar = true)
    (ht : McpHeaders.isValidHeaderName t = true) :
    McpHeaders.isValidHeaderName (s ++ t) = true := by
  simp only [McpHeaders.isValidHeaderName, Bool.and_eq_true, decide_eq_true_eq,
    String.toList_append, List.all_append] at ht ⊢
  refine ⟨?_, hs, ht.2⟩
  intro hempty
  have hlist : (s ++ t).toList = [] := by rw [hempty]; rfl
  rw [String.toList_append, List.append_eq_nil_iff] at hlist
  exact ht.1 (String.toList_inj.mp (hlist.2.trans rfl))

/-! ## The lines of a POST -/

/-- The header line a pair of texts makes. -/
def lineOf (line : String × String) : String × HeaderValue :=
  (McpHeaders.asciiLower line.1, (HeaderValue.fromStr line.2).getD ⟨[]⟩)

/-- What the text of a line must be for the server to read it. -/
def Readable (line : String × String) : Prop :=
  McpHeaders.isValidHeaderName line.1 = true ∧ ∀ c ∈ line.2.toList, McpHeaders.isHeaderChar c = true

/-- A check that evaluates. -/
def Readable.check (line : String × String) : Bool :=
  McpHeaders.isValidHeaderName line.1 && line.2.toList.all McpHeaders.isHeaderChar

theorem readable_of_check {line : String × String} (h : Readable.check line = true) :
    Readable line := by
  obtain ⟨hname, hvalue⟩ := Bool.and_eq_true_iff.mp h
  exact ⟨hname, List.all_eq_true.mp hvalue⟩

theorem toLine_eq_some {line : String × String} {x : String × HeaderValue}
    (h : toLine line = some x) : x = lineOf line := by
  unfold toLine at h
  split at h
  · obtain ⟨v, hv, rfl⟩ := Option.map_eq_some_iff.mp h
    simp [lineOf, hv]
  · cases h

theorem Readable.toLine_eq {line : String × String} (h : Readable line) :
    toLine line = some (lineOf line) := by
  obtain ⟨v, hv, -⟩ := HeaderValue.fromStr_spec h.2
  simp [toLine, lineOf, h.1, hv]

theorem Readable.toStr_eq {line : String × String} (h : Readable line) :
    (lineOf line).2.toStr = some line.2 := by
  obtain ⟨v, hv, hstr⟩ := HeaderValue.fromStr_spec h.2
  simpa [lineOf, hv] using hstr

theorem eq_of_mapM_toLine {lines : List (String × String)} {headers : HeaderMap}
    (h : lines.mapM toLine = some headers) : headers = lines.map lineOf := by
  induction lines generalizing headers with
  | nil =>
      cases h
      rfl
  | cons line lines ih =>
      rw [List.mapM_cons] at h
      cases hline : toLine line with
      | none =>
          rw [hline] at h
          cases h
      | some x =>
          cases hrest : lines.mapM toLine with
          | none =>
              rw [hline, hrest] at h
              cases h
          | some xs =>
              rw [hline, hrest] at h
              cases h
              rw [toLine_eq_some hline, ih hrest]
              rfl

/-- Where the headers of a POST can be made, so can each of them. -/
theorem fromStr_of_mapM_toLine {lines : List (String × String)} {headers : HeaderMap}
    (h : lines.mapM toLine = some headers) {line : String × String} (hline : line ∈ lines) :
    HeaderValue.fromStr line.2 = some (lineOf line).2 := by
  have hsome : ∃ x, toLine line = some x := by
    induction lines generalizing headers with
    | nil => cases hline
    | cons first lines ih =>
        rw [List.mapM_cons] at h
        obtain ⟨x, hx, h⟩ := Option.bind_eq_some_iff.mp h
        obtain ⟨xs, hxs, -⟩ := Option.bind_eq_some_iff.mp h
        rcases List.mem_cons.mp hline with rfl | hline
        · exact ⟨x, hx⟩
        · exact ih hxs hline
  obtain ⟨x, hx⟩ := hsome
  unfold toLine at hx
  split at hx
  · obtain ⟨v, hv, -⟩ := Option.map_eq_some_iff.mp hx
    simp [lineOf, hv]
  · cases hx

theorem mapM_toLine {lines : List (String × String)} (h : ∀ line ∈ lines, Readable line) :
    lines.mapM toLine = some (lines.map lineOf) := by
  induction lines with
  | nil => rfl
  | cons line lines ih =>
      rw [List.mapM_cons, (h line List.mem_cons_self).toLine_eq,
        ih fun l hl => h l (List.mem_cons_of_mem _ hl)]
      rfl

/-- The first line of a name, among the texts. -/
theorem get_map_lineOf (lines : List (String × String)) (name : String) :
    HeaderMap.get (lines.map lineOf) name =
      (lines.find? fun line => McpHeaders.asciiLower line.1 = name).map fun line =>
        (lineOf line).2 := by
  unfold HeaderMap.get HeaderMap.values
  induction lines with
  | nil => rfl
  | cons line lines ih =>
      by_cases hname : McpHeaders.asciiLower line.1 = name
      · simp [lineOf, hname]
      · simpa [lineOf, hname] using ih

/-! ### The lines of a draft call -/

section

variable {shared : Http.Shared} {req : JsonRpcRequest} {name : String}
  {mirrored : List (String × String)}

/-- The lines before the parameters'. -/
def fixedLines (shared : Http.Shared) (name : String) : List (String × String) :=
  [("accept", "application/json, text/event-stream"), ("content-type", "application/json")] ++
    (shared.session.map fun sid => (headerNames.sessionId, sid)).toList ++
    [(headerNames.protocolVersion, ProtocolVersion.draft.asStr),
      (headerNames.mcpMethod, "tools/call"), (headerNames.mcpName, McpHeaders.encodeValue name)]

/-- The parameters' lines; `mirrored` has their names and what they show. -/
def paramLines (mirrored : List (String × String)) : List (String × String) :=
  mirrored.map fun e => ("Mcp-Param-" ++ e.1, McpHeaders.encodeValue e.2)

theorem headerLines_call (hmethod : req.method = "tools/call")
    (hname : bodyField req "name" = some name) :
    headerLines shared (some ProtocolVersion.draft.asStr) (.request req)
        (mirrored.map fun e => (e.1, McpHeaders.encodeValue e.2)) =
      fixedLines shared name ++ paramLines mirrored := by
  have hdraft : isDraft (some ProtocolVersion.draft.asStr) = true := by decide
  have hfield : McpHeaders.nameFieldFor "tools/call" = some "name" := by decide
  simp [headerLines, fixedLines, paramLines, standardLines, hdraft, hmethod, hfield, hname]

theorem find_fixedLines (rest : List (String × String)) {line : String × String}
    (h : line ∈ [(headerNames.protocolVersion, ProtocolVersion.draft.asStr),
      (headerNames.mcpMethod, "tools/call"), (headerNames.mcpName, McpHeaders.encodeValue name)]) :
    (fixedLines shared name ++ rest).find? (fun l => McpHeaders.asciiLower l.1 = line.1) =
      some line := by
  have haccept : McpHeaders.asciiLower "accept" = "accept" := by decide
  have htype : McpHeaders.asciiLower "content-type" = "content-type" := by decide
  have hsession : McpHeaders.asciiLower "mcp-session-id" = "mcp-session-id" := by decide
  have hversion : McpHeaders.asciiLower "mcp-protocol-version" = "mcp-protocol-version" := by
    decide
  have hcall : McpHeaders.asciiLower "mcp-method" = "mcp-method" := by decide
  have hname : McpHeaders.asciiLower "mcp-name" = "mcp-name" := by decide
  simp only [List.mem_cons, List.not_mem_nil, or_false] at h
  unfold fixedLines
  rcases h with rfl | rfl | rfl <;>
    cases shared.session <;>
      simp [haccept, htype, hsession, hversion, hcall, hname, headerNames.protocolVersion,
        headerNames.sessionId, headerNames.mcpMethod, headerNames.mcpName]

variable (shared name) in
/-- The server finds the fixed lines under their names. -/
theorem get_fixedLines (rest : List (String × String)) :
    let headers := (fixedLines shared name ++ rest).map lineOf
    HeaderMap.get headers headerNames.protocolVersion =
        some (lineOf (headerNames.protocolVersion, ProtocolVersion.draft.asStr)).2 ∧
      HeaderMap.get headers headerNames.mcpMethod =
        some (lineOf (headerNames.mcpMethod, "tools/call")).2 ∧
      HeaderMap.get headers headerNames.mcpName =
        some (lineOf (headerNames.mcpName, McpHeaders.encodeValue name)).2 := by
  have hget : ∀ line ∈ [(headerNames.protocolVersion, ProtocolVersion.draft.asStr),
      (headerNames.mcpMethod, "tools/call"), (headerNames.mcpName, McpHeaders.encodeValue name)],
      HeaderMap.get ((fixedLines shared name ++ rest).map lineOf) line.1 =
        some (lineOf line).2 := by
    intro line h
    rw [get_map_lineOf, find_fixedLines rest h, Option.map_some]
  exact ⟨hget _ List.mem_cons_self, hget _ (List.mem_cons_of_mem _ List.mem_cons_self),
    hget _ (List.mem_cons_of_mem _ (List.mem_cons_of_mem _ List.mem_cons_self))⟩

/-- The session header repeats a header of a response. -/
def Captured (shared : Http.Shared) : Prop :=
  ∀ sid, shared.session = some sid → ∃ v : HeaderValue, v.toStr = some sid

theorem readable_session {sid : String} {v : HeaderValue} (h : v.toStr = some sid) :
    Readable (headerNames.sessionId, sid) :=
  ⟨show McpHeaders.isValidHeaderName headerNames.sessionId = true by decide,
    fun _ hc => HeaderValue.isHeaderChar_of_toStr h hc⟩

theorem readable_fixedLines (hcaptured : Captured shared) :
    ∀ line ∈ fixedLines shared name, Readable line := by
  have hconst : ∀ line ∈ [("accept", "application/json, text/event-stream"),
      ("content-type", "application/json"),
      (headerNames.protocolVersion, ProtocolVersion.draft.asStr),
      (headerNames.mcpMethod, "tools/call")], Readable line := by
    intro line hline
    have hall : [("accept", "application/json, text/event-stream"),
        ("content-type", "application/json"),
        (headerNames.protocolVersion, ProtocolVersion.draft.asStr),
        (headerNames.mcpMethod, "tools/call")].all Readable.check = true := by
      decide +kernel
    exact readable_of_check (List.all_eq_true.mp hall line hline)
  intro line hline
  simp only [fixedLines, List.mem_append, List.mem_cons, List.not_mem_nil, or_false,
    Option.mem_toList, Option.map_eq_some_iff] at hline
  rcases hline with ((rfl | rfl) | ⟨sid, hsid, rfl⟩) | rfl | rfl | rfl
  · exact hconst _ (by simp)
  · exact hconst _ (by simp)
  · obtain ⟨v, hv⟩ := hcaptured sid hsid
    exact readable_session hv
  · exact hconst _ (by simp)
  · exact hconst _ (by simp)
  · exact ⟨show McpHeaders.isValidHeaderName headerNames.mcpName = true by decide,
      fun c hc => McpHeaders.isHeaderChar_encodeValue hc⟩

theorem paramOf_fixedLines : ∀ line ∈ fixedLines shared name, paramOf (lineOf line).1 = none := by
  have hconst : ∀ n ∈ ["accept", "content-type", headerNames.sessionId,
      headerNames.protocolVersion, headerNames.mcpMethod, headerNames.mcpName],
      paramOf (McpHeaders.asciiLower n) = none := by decide
  intro line hline
  refine hconst line.1 ?_
  cases hsession : shared.session <;>
    simp only [fixedLines, hsession, Option.map_none, Option.map_some, Option.toList_none,
      Option.toList_some, List.append_nil, List.mem_append, List.mem_cons, List.not_mem_nil,
      or_false] at hline
  · rcases hline with (rfl | rfl) | rfl | rfl | rfl <;> simp
  · rcases hline with ((rfl | rfl) | rfl) | rfl | rfl | rfl <;> simp

theorem readable_param {h : String} (value : String) (hvalid : McpHeaders.isValidHeaderName h = true) :
    Readable ("Mcp-Param-" ++ h, McpHeaders.encodeValue value) :=
  ⟨isValidHeaderName_append (by decide) hvalid, fun _ hc => McpHeaders.isHeaderChar_encodeValue hc⟩

theorem paramOf_lineOf (h value : String) :
    paramOf (lineOf ("Mcp-Param-" ++ h, value)).1 = some (McpHeaders.asciiLower h) := by
  rw [lineOf, asciiLower_paramName, paramOf_param]

/-- What the server reads in an encoded line. -/
theorem shown_lineOf {n value : String} (h : McpHeaders.isValidHeaderName n = true) :
    (lineOf (n, McpHeaders.encodeValue value)).2.shown = some value := by
  have hreadable : Readable (n, McpHeaders.encodeValue value) :=
    ⟨h, fun _ hc => McpHeaders.isHeaderChar_encodeValue hc⟩
  rw [HeaderValue.shown, hreadable.toStr_eq]
  exact McpHeaders.decodeValue_encodeValue value

/-- **The call's headers at the server**: they pass when each mirrored value is
the one of the argument the server finds under its name. -/
theorem validate_callLines {body : JsonRpcRequest} {args : Map}
    (hdraft : declaredVersion (.request body) = some ProtocolVersion.draft.asStr)
    (hmethod : body.method = "tools/call") (hname : bodyField body "name" = some name)
    (hargs : callArguments body = some args)
    (hvalid : ∀ e ∈ mirrored, McpHeaders.isValidHeaderName e.1 = true) :
    validateRequestHeaders (.request body)
        ((fixedLines shared name ++ paramLines mirrored).map lineOf) = none ↔
      ∀ e ∈ mirrored, ∀ a, argumentFor args e.1 = some a →
        McpHeaders.renderArgument a.2 = some e.2 := by
  have hdeclared : declaredDraft (.request body) = true := by
    rw [declaredDraft, hdraft]
    decide
  have hreadable : Readable (headerNames.protocolVersion, ProtocolVersion.draft.asStr) ∧
      Readable (headerNames.mcpMethod, "tools/call") := by
    constructor
    · exact readable_of_check (by decide +kernel)
    · exact readable_of_check (by decide +kernel)
  obtain ⟨hversion, hcall, hnamed⟩ :=
    get_fixedLines shared name (paramLines mirrored)
  rw [validateRequestHeaders_eq_none hdeclared, hversion, Option.bind_some,
    hreadable.1.toStr_eq, hdraft, checkMethod_eq_none, hcall, Option.bind_some,
    hreadable.2.toStr_eq, hmethod, checkName_eq_none, hnamed, Option.bind_some,
    shown_lineOf (by decide), hmethod, checkParams_eq_none, hargs]
  have hfield : McpHeaders.nameFieldFor "tools/call" = some "name" := by decide
  simp only [hfield, hname, Option.some.injEq, forall_eq', exists_eq_left', true_and]
  constructor
  · intro h e he a ha
    have hmem : lineOf ("Mcp-Param-" ++ e.1, McpHeaders.encodeValue e.2) ∈
        (fixedLines shared name ++ paramLines mirrored).map lineOf :=
      List.mem_map_of_mem (List.mem_append_right _ (List.mem_map_of_mem he))
    obtain ⟨s, hs, hrendered⟩ := h _ hmem _ (paramOf_lineOf e.1 _) a
      ((argumentFor_asciiLower args e.1).trans ha)
    rw [shown_lineOf (readable_param e.2 (hvalid e he)).1] at hs
    rw [hrendered, hs]
  · intro h line hline param hparam a ha
    obtain ⟨text, htext, rfl⟩ := List.mem_map.mp hline
    rcases List.mem_append.mp htext with hfixed | hparams
    · rw [paramOf_fixedLines text hfixed] at hparam
      cases hparam
    · obtain ⟨e, he, rfl⟩ := List.mem_map.mp hparams
      rw [paramOf_lineOf] at hparam
      obtain rfl := Option.some.inj hparam
      rw [argumentFor_asciiLower] at ha
      exact ⟨e.2, shown_lineOf (readable_param e.2 (hvalid e he)).1, h e he a ha⟩

end

/-! ## The body that is left

Lifting the signals out, and sanitizing at the server, touch `_meta` alone. -/

theorem field_retainMeta (p : String → Bool) {key : String} (hkey : key ≠ "_meta")
    (params : Option Value) :
    (Meta.retainMeta p params).bind (·.get key) = params.bind (·.get key) := by
  unfold Meta.retainMeta
  split
  · split
    · simp [Map.get_insert, hkey.symm]
    · rfl
  · rfl

theorem field_dropEmptyMeta {key : String} (hkey : key ≠ "_meta") (params : Option Value) :
    (dropEmptyMeta params).bind (·.get key) = params.bind (·.get key) := by
  unfold dropEmptyMeta
  split
  · split
    · simp [Map.get_retain, hkey]
    · rfl
  · rfl

theorem entry_dropEmptyMeta (key : String) (params : Option Value) :
    Meta.entry key (dropEmptyMeta params) = Meta.entry key params := by
  unfold dropEmptyMeta
  split
  · split
    · rename_i hempty
      simp [Meta.entry, Meta.metaObject, Map.get_retain, hempty]
      rfl
    · rfl
  · rfl

/-- The request as the server validates it. -/
def receivedBody (req : JsonRpcRequest) : JsonRpcRequest :=
  { req with
    params := Meta.retainMeta (fun key => !Meta.internal.isInternalKey key)
      (dropEmptyMeta (Meta.retainMeta (· ≠ negotiatedVersionKey)
        (Meta.retainMeta (· ≠ headerParamsKey) req.params))) }

theorem field_receivedBody (req : JsonRpcRequest) {key : String} (hkey : key ≠ "_meta") :
    (receivedBody req).params.bind (·.get key) = req.params.bind (·.get key) := by
  unfold receivedBody
  simp only
  rw [field_retainMeta _ hkey, field_dropEmptyMeta hkey, field_retainMeta _ hkey,
    field_retainMeta _ hkey]

theorem declaredVersion_receivedBody (req : JsonRpcRequest) :
    declaredVersion (.request (receivedBody req)) = declaredVersion (.request req) := by
  have hkeys : (!Meta.internal.isInternalKey Meta.keys.protocolVersion) = true ∧
      Meta.keys.protocolVersion ≠ negotiatedVersionKey ∧
        Meta.keys.protocolVersion ≠ headerParamsKey := by decide
  show (Meta.entry Meta.keys.protocolVersion (receivedBody req).params).bind Value.asStr = _
  unfold receivedBody
  simp only
  rw [Meta.entry_retainMeta, if_pos hkeys.1, entry_dropEmptyMeta, Meta.entry_retainMeta,
    if_pos (by simpa using hkeys.2.1), Meta.entry_retainMeta, if_pos (by simpa using hkeys.2.2)]
  rfl

/-- **A draft request's POST**: its version is the one it states, its mirrors
are the signal's, and its body is what the server receives. -/
theorem prepare_request (shared : Http.Shared) {req : JsonRpcRequest} {v : String}
    (hsignal : Meta.entry negotiatedVersionKey req.params = some (.string v)) :
    ∃ body : JsonRpcRequest, body.method = req.method ∧
      (∀ key, key ≠ "_meta" → body.params.bind (·.get key) = req.params.bind (·.get key)) ∧
      (prepare shared (.request req)).2.headers =
        (headerLines shared (some v) (.request body)
          (mirrorEntries (Meta.entry headerParamsKey req.params))).mapM toLine ∧
      Meta.sanitizeInbound (prepare shared (.request req)).2.body = .request (receivedBody req) := by
  have hne : (decide (negotiatedVersionKey ≠ headerParamsKey)) = true := by decide
  have hstated : statedVersion (.request { req with
      params := Meta.retainMeta (· ≠ headerParamsKey) req.params }) = some v := by
    show ((Meta.entry negotiatedVersionKey (Meta.retainMeta (· ≠ headerParamsKey)
      req.params)).bind Value.asStr).or _ = some v
    rw [Meta.entry_retainMeta, if_pos hne, hsignal]
    rfl
  refine ⟨{ req with params := dropEmptyMeta (Meta.retainMeta (· ≠ negotiatedVersionKey)
    (Meta.retainMeta (· ≠ headerParamsKey) req.params)) }, rfl, ?_, ?_, rfl⟩
  · intro key hkey
    simp only
    rw [field_dropEmptyMeta hkey, field_retainMeta _ hkey, field_retainMeta _ hkey]
  · unfold prepare extractHeaderParams extractProtocolVersion
    simp only [hstated]
    rfl

/-! ## The rounds of a call -/

/-- The parameters of a call's first round, and of each round after it. -/
inductive Round (params : Map) : Map → Prop
  | first : Round params params
  | retry {round : Map} (h : Round params round) (result : Value) (responses : Map) :
      Round params (retryParams round result responses)

theorem Round.get {params round : Map} (h : Round params round) {key : String}
    (hkey : key ≠ "inputResponses" ∧ key ≠ "requestState") :
    Map.get round key = Map.get params key := by
  induction h with
  | first => rfl
  | retry h result responses ih =>
      unfold retryParams
      simp only
      split
      · rw [Map.get_insert, if_neg hkey.1.symm, ih]
      · rw [Map.get_insert, if_neg hkey.2.symm, Map.get_insert, if_neg hkey.1.symm, ih]

/-- The mirrored headers' names, and what each shows. -/
def mirroredOf (ps : List HeaderParam) (arguments : Map) : List (String × String) :=
  ps.filterMap fun p => (p.rendered arguments).map fun r => (p.header, r)

theorem mem_mirroredOf {ps : List HeaderParam} {arguments : Map} {e : String × String} :
    e ∈ mirroredOf ps arguments ↔
      ∃ p ∈ ps, p.header = e.1 ∧ p.rendered arguments = some e.2 := by
  unfold mirroredOf
  rw [List.mem_filterMap]
  refine exists_congr fun p => and_congr_right fun _ => ?_
  rw [Option.map_eq_some_iff]
  constructor
  · rintro ⟨r, hr, rfl⟩
    exact ⟨rfl, hr⟩
  · rintro ⟨hheader, hr⟩
    exact ⟨e.2, hr, Prod.ext hheader rfl⟩

theorem mirrorEntries_mirrors {ps : List HeaderParam}
    (h : (ps.map fun p => McpHeaders.asciiLower p.header).Nodup) (arguments : Map) :
    mirrorEntries (some (.object (mirrors ps arguments))) =
      (mirroredOf ps arguments).map fun e => (e.1, McpHeaders.encodeValue e.2) := by
  have hmirror : ps.filterMap (·.mirror arguments) = (mirroredOf ps arguments).map fun e =>
      (e.1, Value.string (McpHeaders.encodeValue e.2)) := by
    unfold mirroredOf
    rw [List.map_filterMap]
    refine List.filterMap_congr fun p _ => ?_
    rw [HeaderParam.mirror, Option.map_map]
    rfl
  rw [mirrors_eq h, hmirror]
  show ((mirroredOf ps arguments).map fun e =>
    (e.1, Value.string (McpHeaders.encodeValue e.2))).filterMap _ = _
  rw [List.filterMap_map]
  show (mirroredOf ps arguments).filterMap (fun e => some (e.1, McpHeaders.encodeValue e.2)) = _
  rw [List.filterMap_eq_map']

/-- What a call's parameters hold. -/
theorem toolCallParams_spec {ps : List HeaderParam}
    (h : (ps.map fun p => McpHeaders.asciiLower p.header).Nodup) (name : String)
    (arguments : Map) :
    Map.get (toolCallParams ps name arguments) "name" = some (.string name) ∧
      Map.get (toolCallParams ps name arguments) "arguments" = some (.object arguments) ∧
      ∃ m, (Map.get (toolCallParams ps name arguments) "_meta").getD (.object []) = .object m ∧
        Map.get m Meta.keys.protocolVersion = none ∧
        mirrorEntries (Map.get m headerParamsKey) =
          (mirroredOf ps arguments).map fun e => (e.1, McpHeaders.encodeValue e.2) := by
  refine ⟨rfl, rfl, ?_⟩
  have hentries := mirrorEntries_mirrors h arguments
  cases hm : mirrors ps arguments with
  | nil =>
      refine ⟨[], ?_, rfl, ?_⟩
      · simp [toolCallParams, hm, Map.get]
      · rw [← hentries, hm]
        rfl
  | cons e m =>
      refine ⟨[(headerParamsKey, .object (e :: m))], ?_, ?_, ?_⟩
      · simp [toolCallParams, hm, Map.get]
      · have hne : headerParamsKey ≠ Meta.keys.protocolVersion := by decide
        simp [Map.get, hne]
      · rw [← hentries, hm]
        rfl

theorem get_versionedMeta_of_ne (b : ClientBuilder) (version : ProtocolVersion) (m : Map)
    {key : String} (hsignal : negotiatedVersionKey ≠ key)
    (hkey : ∀ e ∈ b.requestMeta version, e.1 ≠ key) :
    Map.get (versionedMeta b version m) key = Map.get m key := by
  have hbase : Map.get (Map.insert m negotiatedVersionKey (.string version.asStr)) key =
      Map.get m key := by rw [Map.get_insert, if_neg hsignal]
  unfold versionedMeta
  simp only
  split
  · generalize Map.insert m negotiatedVersionKey (.string version.asStr) = m' at hbase
    rw [← hbase]
    revert hkey
    generalize b.requestMeta version = envelope
    intro hkey
    induction envelope generalizing m' with
    | nil => rfl
    | cons e envelope ih =>
        rw [List.foldl_cons, ih _ _ fun e' he' => hkey e' (List.mem_cons_of_mem _ he')]
        · exact get_envelope_of_ne (hkey e List.mem_cons_self) m' e.2
        · exact (get_envelope_of_ne (hkey e List.mem_cons_self) m' e.2).trans hbase
  · exact hbase

/-- The version envelope has no mirrors. -/
theorem requestMeta_ne (b : ClientBuilder) (version : ProtocolVersion) :
    ∀ e ∈ b.requestMeta version, e.1 ≠ headerParamsKey := by
  intro e he
  simp only [ClientBuilder.requestMeta, List.mem_cons, List.not_mem_nil, or_false] at he
  have hconst : Meta.keys.protocolVersion ≠ headerParamsKey ∧
    Meta.keys.clientInfo ≠ headerParamsKey ∧
      Meta.keys.clientCapabilities ≠ headerParamsKey := by decide
  rcases he with rfl | rfl | rfl
  · exact hconst.1
  · exact hconst.2.1
  · exact hconst.2.2

/-! ## The server's verdict -/

/-- No mirror goes by the name of an argument that renders differently. -/
def MirrorsAgree (ps : List HeaderParam) (arguments : Map) : Prop :=
  ∀ p ∈ ps, ∀ r, p.rendered arguments = some r → ∀ e, argumentFor arguments p.header = some e →
    McpHeaders.renderArgument e.2 = some r

section

variable {ps : List HeaderParam} {b : ClientBuilder} {name : String} {arguments round : Map}

/-- One round of a call, as a request. -/
def callRequest (b : ClientBuilder) (round : Map) (n : Int) : JsonRpcRequest :=
  { id := .number n, method := "tools/call", params := some (.object (versionedParams b .draft round)) }

theorem callRequest_spec (h : (ps.map fun p => McpHeaders.asciiLower p.header).Nodup)
    (hround : Round (toolCallParams ps name arguments) round) (n : Int) :
    Meta.entry negotiatedVersionKey (callRequest b round n).params =
        some (.string ProtocolVersion.draft.asStr) ∧
      declaredVersion (.request (callRequest b round n)) = some ProtocolVersion.draft.asStr ∧
      mirrorEntries (Meta.entry headerParamsKey (callRequest b round n).params) =
        (mirroredOf ps arguments).map (fun e => (e.1, McpHeaders.encodeValue e.2)) ∧
      (callRequest b round n).params.bind (·.get "name") = some (.string name) ∧
      (callRequest b round n).params.bind (·.get "arguments") = some (.object arguments) := by
  obtain ⟨hname, harguments, m, hm, hfree, hentries⟩ := toolCallParams_spec h name arguments
  rw [← hround.get (by decide)] at hname harguments hm
  have hparams : versionedParams b .draft round =
      Map.insert round "_meta" (.object (versionedMeta b .draft m)) := by
    unfold versionedParams
    rw [hm]
  have hmeta : Meta.metaObject (callRequest b round n).params =
      some (versionedMeta b .draft m) := by
    show Meta.metaObject (some (.object (versionedParams b .draft round))) = _
    rw [hparams]
    simp [Meta.metaObject]
  refine ⟨?_, ?_, ?_, ?_, ?_⟩
  · rw [Meta.entry, hmeta, Option.bind_some, get_versionedMeta_signal]
  · show (Meta.entry _ (callRequest b round n).params).bind Value.asStr = _
    rw [Meta.entry, hmeta, Option.bind_some, get_versionedMeta b .draft hfree, if_pos rfl]
    rfl
  · rw [Meta.entry, hmeta, Option.bind_some,
      get_versionedMeta_of_ne b .draft m (by decide) (requestMeta_ne b .draft), hentries]
  · show (Map.get (versionedParams b .draft round) "name") = _
    rw [hparams, Map.get_insert, if_neg (by decide), hname]
  · show (Map.get (versionedParams b .draft round) "arguments") = _
    rw [hparams, Map.get_insert, if_neg (by decide), harguments]

/-- The server takes a POST's headers for its body's, whatever the transport
has captured so far. -/
def PassesValidation : Exchange → Prop
  | .request method params =>
      ∀ (shared : Http.Shared) (n : Int), Captured shared →
        let post := (prepare shared (.request { id := .number n, method, params })).2
        ∃ headers, post.headers = some headers ∧
          validateRequestHeaders (Meta.sanitizeInbound post.body) headers = none
  | .notify _ _ => True

/-- Each round's POST has its headers, and the server compares them with the
arguments. -/
theorem round_validated (hvalid : ∀ p ∈ ps, McpHeaders.isValidHeaderName p.header = true)
    (hnodup : (ps.map fun p => McpHeaders.asciiLower p.header).Nodup)
    (hround : Round (toolCallParams ps name arguments) round) {shared : Http.Shared}
    (hcaptured : Captured shared) (n : Int) :
    let post := (prepare shared (.request (callRequest b round n))).2
    ∃ headers, post.headers = some headers ∧
      (validateRequestHeaders (Meta.sanitizeInbound post.body) headers = none ↔
        MirrorsAgree ps arguments) := by
  obtain ⟨hsignal, hdeclared, hmirrors, hname, harguments⟩ :=
    callRequest_spec (b := b) hnodup hround n
  obtain ⟨body, hmethod, hfield, hheaders, hbody⟩ := prepare_request shared hsignal
  have hmirrored : ∀ e ∈ mirroredOf ps arguments, McpHeaders.isValidHeaderName e.1 = true := by
    intro e he
    obtain ⟨p, hp, heq, -⟩ := mem_mirroredOf.mp he
    rw [← heq]
    exact hvalid p hp
  have hbodyName : bodyField body "name" = some name := by
    rw [bodyField, hfield "name" (by decide), hname]
    rfl
  rw [hmirrors, headerLines_call hmethod hbodyName] at hheaders
  have hreadable : ∀ line ∈ fixedLines shared name ++ paramLines (mirroredOf ps arguments),
      Readable line := by
    intro line hline
    rcases List.mem_append.mp hline with hline | hline
    · exact readable_fixedLines hcaptured line hline
    · obtain ⟨e, he, rfl⟩ := List.mem_map.mp hline
      exact readable_param e.2 (hmirrored e he)
  refine ⟨_, hheaders.trans (mapM_toLine hreadable), ?_⟩
  have hreceivedName : bodyField (receivedBody (callRequest b round n)) "name" = some name := by
    rw [bodyField, field_receivedBody _ (by decide), hname]
    rfl
  have hreceivedArguments : callArguments (receivedBody (callRequest b round n)) =
      some arguments := by
    rw [callArguments, if_pos (show (receivedBody (callRequest b round n)).method = "tools/call"
      from rfl), field_receivedBody _ (by decide), harguments]
    rfl
  rw [hbody, validate_callLines ((declaredVersion_receivedBody _).trans hdeclared) rfl
    hreceivedName hreceivedArguments hmirrored]
  constructor
  · intro h p hp r hr e he
    exact h (p.header, r) (mem_mirroredOf.mpr ⟨p, hp, rfl, hr⟩) e he
  · intro h e he a ha
    obtain ⟨p, hp, hheader, hr⟩ := mem_mirroredOf.mp he
    exact h p hp e.2 hr a (hheader ▸ ha)

theorem passes_round (hvalid : ∀ p ∈ ps, McpHeaders.isValidHeaderName p.header = true)
    (hnodup : (ps.map fun p => McpHeaders.asciiLower p.header).Nodup)
    (hround : Round (toolCallParams ps name arguments) round) :
    PassesValidation (.request "tools/call" (some (.object (versionedParams b .draft round)))) ↔
      MirrorsAgree ps arguments := by
  constructor
  · intro h
    have hcaptured : Captured Http.Shared.initial := nofun
    obtain ⟨headers, hheaders, hiff⟩ :=
      round_validated (b := b) hvalid hnodup hround hcaptured 0
    obtain ⟨headers', hheaders', haccepted⟩ := h Http.Shared.initial 0 hcaptured
    obtain rfl := Option.some.inj (hheaders'.symm.trans hheaders)
    exact hiff.mp haccepted
  · intro h shared n hcaptured
    obtain ⟨headers, hheaders, hiff⟩ :=
      round_validated (b := b) hvalid hnodup hround hcaptured n
    exact ⟨headers, hheaders, hiff.mpr h⟩

/-- What is left of a call keeps passing, whatever the server answers. -/
theorem rounds_pass {handler : Option ClientHandler} {params : Map}
    (h : ∀ round, Round params round →
      PassesValidation (.request "tools/call" (some (.object (versionedParams b .draft round)))))
    (rounds : Nat) (hround : Round params round) :
    Program.wp PassesValidation (fun _ _ => True)
      (mrtrRounds b .draft handler "tools/call" rounds round) fun _ => True := by
  induction rounds generalizing handler round with
  | zero => exact trivial
  | succ rounds ih =>
      refine ⟨h round hround, fun reply _ => ?_⟩
      cases reply with
      | error e => exact trivial
      | ok result =>
          show Program.wp _ _ (if _ then _ else _) _
          split
          · cases handler with
            | none => exact trivial
            | some handler =>
                simp only
                split
                · exact trivial
                · exact ih (hround.retry result _)
          · exact trivial

end

/-- **Emitted mirrors**: a call's POSTs all pass the server's validation iff no
mirrored header goes by the name of an argument other than the one it shows. -/
theorem tool_call_accepted_iff {debug : String → String} {inputSchema : Value}
    {ps : List HeaderParam} (h : headerParamsFromSchema debug inputSchema = .ok ps)
    (b : ClientBuilder) (handler : Option ClientHandler) (name : String) (arguments : Map) :
    Program.wp PassesValidation (fun _ _ => True)
        (mrtrRequest b .draft handler "tools/call" (toolCallParams ps name arguments))
        (fun _ => True) ↔
      MirrorsAgree ps arguments := by
  obtain ⟨hvalid, hnodup⟩ := headerParamsFromSchema_spec h
  constructor
  · intro hpass
    exact (passes_round hvalid hnodup .first).mp hpass.1
  · intro hagree
    exact rounds_pass (fun round hround => (passes_round hvalid hnodup hround).mpr hagree) _ .first

/-! ### Two tools -/

def quoted (s : String) : String := "\"" ++ s ++ "\""

def sampleClient : ClientBuilder :=
  { clientInfo := { name := "client", title := none, version := "1" }, capabilities := .object [],
    connectMode := .modern }

/-- Two top-level parameters, one mirrored under another name than its own. -/
def deploySchema : Value :=
  .object [("type", .string "object"), ("properties", .object
    [("region", .object [("type", .string "string"), ("x-mcp-header", .string "Region")]),
      ("count", .object [("type", .string "integer"), ("x-mcp-header", .string "Replicas")])])]

def deployArguments : Map := [("region", .string "us-west"), ("count", .int 3)]

def deployParams : List HeaderParam :=
  [{ header := "Region", path := ["region"] }, { header := "Replicas", path := ["count"] }]

theorem deploy_accepted :
    Program.wp PassesValidation (fun _ _ => True)
      (mrtrRequest sampleClient .draft none "tools/call"
        (toolCallParams deployParams "deploy" deployArguments)) (fun _ => True) := by
  have hschema : headerParamsFromSchema quoted deploySchema = .ok deployParams := by decide
  have hagree : MirrorsAgree deployParams deployArguments := by
    intro p hp r hr e he
    simp only [deployParams, List.mem_cons, List.not_mem_nil, or_false] at hp
    rcases hp with rfl | rfl
    · obtain rfl : ("region", Value.string "us-west") = e := Option.some.inj he
      exact hr
    · cases he
  exact (tool_call_accepted_iff hschema sampleClient none "deploy" deployArguments).mpr hagree

/-- A nested parameter mirrored under the name of a top-level one. -/
def placeSchema : Value :=
  .object [("type", .string "object"), ("properties", .object
    [("region", .object [("type", .string "string")]),
      ("options", .object [("type", .string "object"), ("properties", .object
        [("zone", .object [("type", .string "string"), ("x-mcp-header", .string "Region")])])])])]

def placeArguments : Map :=
  [("region", .string "eu"), ("options", .object [("zone", .string "eu-1")])]

def placeParams : List HeaderParam := [{ header := "Region", path := ["options", "zone"] }]

theorem place_rejected :
    headerParamsFromSchema quoted placeSchema = .ok placeParams ∧
      ¬ Program.wp PassesValidation (fun _ _ => True)
        (mrtrRequest sampleClient .draft none "tools/call"
          (toolCallParams placeParams "place" placeArguments)) (fun _ => True) := by
  have hschema : headerParamsFromSchema quoted placeSchema = .ok placeParams := by decide
  refine ⟨hschema, fun h => ?_⟩
  obtain ⟨hvalid, hnodup⟩ := headerParamsFromSchema_spec hschema
  have hagree := (passes_round hvalid hnodup .first).mp h.1 _ List.mem_cons_self
    "eu-1" rfl ("region", .string "eu") rfl
  exact absurd hagree (by decide)

end TurboMcp.System
