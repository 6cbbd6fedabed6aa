import TurboMcp.Core.Meta
import TurboMcp.Service.McpHeaders

/-!
# Mirror headers

On the draft an HTTP request repeats parts of its body in headers, for
intermediaries to route by.  The server compares them with the body and refuses
a request whose headers differ.  A header may be repeated; three of the checks
look at its first line, the one for tool arguments at every line.
-/

namespace TurboMcp.Transport

open TurboMcp.Core TurboMcp.Service

/-! ## Header maps -/

structure HeaderValue where
  bytes : List UInt8
  deriving DecidableEq

namespace HeaderValue

def isVisible (b : UInt8) : Bool := (32 ≤ b && b < 127) || b = 9

/-- `HeaderValue::to_str`: visible ASCII only. -/
def toStr (v : HeaderValue) : Option String :=
  if v.bytes.all isVisible then some (String.ofList (v.bytes.map fun b => Char.ofNat b.toNat))
  else none

/-- `HeaderValue::from_str`: no control characters. -/
def fromStr (s : String) : Option HeaderValue :=
  let bytes := s.toUTF8.data.toList
  if bytes.all fun b => (32 ≤ b && b ≠ 127) || b = 9 then some ⟨bytes⟩ else none

/-- The value behind a header that may hold a Base64 sentinel. -/
def shown (v : HeaderValue) : Option String := v.toStr.bind McpHeaders.decodeValue

theorem toNat_charOfByte (b : UInt8) : (Char.ofNat b.toNat).toNat = b.toNat := by
  have hsmall : b.toNat < 256 := b.toNat_lt
  rw [Char.ofNat, dif_pos (Or.inl (by omega))]
  rfl

theorem toStr_inj {v w : HeaderValue} {s : String} (hv : v.toStr = some s)
    (hw : w.toStr = some s) : v = w := by
  have hbytes : ∀ u : HeaderValue, u.toStr = some s →
      u.bytes.map (fun b => b.toNat) = s.toList.map Char.toNat := by
    intro u hu
    unfold toStr at hu
    split at hu
    · rename_i hvisible
      rw [← Option.some.inj hu, String.toList_ofList, List.map_map]
      exact List.map_congr_left fun b _ => (toNat_charOfByte b).symm
    · cases hu
  have hmap := (hbytes v hv).trans (hbytes w hw).symm
  obtain ⟨bytes⟩ := v
  obtain ⟨bytes'⟩ := w
  rw [HeaderValue.mk.injEq]
  exact List.map_injective_iff.mpr (fun a b h => UInt8.toNat_inj.mp h) hmap

/-- What a header shows can be put into a header again. -/
theorem isHeaderChar_of_toStr {v : HeaderValue} {s : String} (h : v.toStr = some s) {c : Char}
    (hc : c ∈ s.toList) : McpHeaders.isHeaderChar c = true := by
  unfold toStr at h
  split at h
  · rename_i hvisible
    rw [← Option.some.inj h, String.toList_ofList] at hc
    obtain ⟨b, hb, rfl⟩ := List.mem_map.mp hc
    have hrange : (32 ≤ b.toNat ∧ b.toNat < 127) ∨ b.toNat = 9 := by
      have hb := List.all_eq_true.mp hvisible b hb
      simpa [isVisible, UInt8.le_iff_toNat_le, UInt8.lt_iff_toNat_lt, ← UInt8.toNat_inj] using hb
    unfold McpHeaders.isHeaderChar
    rw [toNat_charOfByte]
    have hblank : b.toNat = 32 ∨ b.toNat = 9 → McpHeaders.isBlank (Char.ofNat b.toNat) = true := by
      rintro (hb | hb) <;> rw [hb] <;> decide
    simp only [Bool.or_eq_true, Bool.and_eq_true, decide_eq_true_eq]
    rcases hrange with ⟨hlow, hhigh⟩ | htab
    · rcases Nat.eq_or_lt_of_le hlow with heq | hlow
      · exact Or.inr (hblank (Or.inl heq.symm))
      · exact Or.inl ⟨by omega, by omega⟩
    · exact Or.inr (hblank (Or.inr htab))
  · cases h

theorem utf8_of_ascii {chars : List Char} (h : ∀ c ∈ chars, c.toNat < 128) :
    (String.ofList chars).toUTF8.data.toList = chars.map Char.toUInt8 := by
  have hencode : chars.flatMap String.utf8EncodeChar = chars.map Char.toUInt8 := by
    induction chars with
    | nil => rfl
    | cons c chars ih =>
        have hsize : c.utf8Size = 1 := by
          have hc : c.val ≤ 0x7f := UInt32.le_iff_toNat_le.mpr (by
            have hc : c.val.toNat < 128 := h c List.mem_cons_self
            simpa using Nat.le_of_lt_succ hc)
          simp [Char.utf8Size, hc]
        rw [List.flatMap_cons, String.utf8EncodeChar_eq_singleton hsize,
          ih fun d hd => h d (List.mem_cons_of_mem _ hd)]
        rfl
  rw [String.toUTF8_eq_toByteArray, String.toByteArray_ofList, List.utf8Encode, hencode]
  exact List.toList_data_toByteArray

theorem isVisible_toUInt8 {c : Char} (h : McpHeaders.isHeaderChar c = true) :
    c.toNat < 128 ∧ isVisible c.toUInt8 = true ∧ Char.ofNat c.toUInt8.toNat = c := by
  have hc : (33 ≤ c.toNat ∧ c.toNat ≤ 126) ∨ c.toNat = 32 ∨ c.toNat = 9 := by
    simp only [McpHeaders.isHeaderChar, McpHeaders.isBlank, Bool.or_eq_true, Bool.and_eq_true,
      decide_eq_true_eq] at h
    rcases h with h | rfl | rfl
    · exact Or.inl h
    · exact Or.inr (Or.inl rfl)
    · exact Or.inr (Or.inr rfl)
  have hnat : c.toUInt8.toNat = c.toNat := by
    show c.val.toNat % 256 = c.toNat
    exact Nat.mod_eq_of_lt (by unfold Char.toNat at hc; omega)
  refine ⟨by omega, ?_, by rw [hnat, Char.ofNat_toNat]⟩
  simp only [isVisible, Bool.or_eq_true, Bool.and_eq_true, decide_eq_true_eq,
    UInt8.le_iff_toNat_le, UInt8.lt_iff_toNat_lt, ← UInt8.toNat_inj, hnat]
  simp only [UInt8.reduceToNat]
  omega

/-- A text of header characters goes into a header and comes out again. -/
theorem fromStr_spec {s : String} (h : ∀ c ∈ s.toList, McpHeaders.isHeaderChar c = true) :
    ∃ v, fromStr s = some v ∧ v.toStr = some s := by
  have hbytes : s.toUTF8.data.toList = s.toList.map Char.toUInt8 := by
    conv_lhs => rw [← String.ofList_toList (s := s)]
    exact utf8_of_ascii fun c hc => (isVisible_toUInt8 (h c hc)).1
  have hvisible : ∀ b ∈ s.toUTF8.data.toList, isVisible b = true := by
    rw [hbytes]
    intro b hb
    obtain ⟨c, hc, rfl⟩ := List.mem_map.mp hb
    exact (isVisible_toUInt8 (h c hc)).2.1
  have hallowed : (s.toUTF8.data.toList.all fun b => (32 ≤ b && b ≠ 127) || b = 9) = true := by
    rw [List.all_eq_true]
    intro b hb
    have hb := hvisible b hb
    simp only [isVisible, Bool.or_eq_true, Bool.and_eq_true, decide_eq_true_eq] at hb ⊢
    rcases hb with ⟨hlow, hhigh⟩ | rfl
    · exact Or.inl ⟨hlow, by simpa using UInt8.ne_of_lt hhigh⟩
    · exact Or.inr rfl
  refine ⟨⟨s.toUTF8.data.toList⟩, ?_, ?_⟩
  · simp only [fromStr]
    rw [if_pos hallowed]
  · have hall : s.toUTF8.data.toList.all isVisible = true := List.all_eq_true.mpr hvisible
    unfold toStr
    simp only
    rw [if_pos hall, hbytes, List.map_map]
    have hmap : s.toList.map (((fun b : UInt8 => Char.ofNat b.toNat)) ∘ Char.toUInt8) = s.toList := by
      conv_rhs => rw [← List.map_id s.toList]
      exact List.map_congr_left fun c hc => (isVisible_toUInt8 (h c hc)).2.2
    rw [hmap, String.ofList_toList]

end HeaderValue

/-- One entry a header line, under its name in lower case. -/
abbrev HeaderMap := List (String × HeaderValue)

namespace HeaderMap

/-- The lines of one name. -/
def values (headers : HeaderMap) (name : String) : List HeaderValue :=
  (headers.filter (·.1 = name)).map (·.2)

/-- `HeaderMap::get`: the first line of a name. -/
def get (headers : HeaderMap) (name : String) : Option HeaderValue := (headers.values name).head?

theorem exists_get {headers : HeaderMap} {name : String} {v : HeaderValue}
    (h : v ∈ headers.values name) : ∃ w ∈ headers.values name, headers.get name = some w := by
  unfold get
  cases hvalues : headers.values name with
  | nil =>
      rw [hvalues] at h
      cases h
  | cons w rest => exact ⟨w, List.mem_cons_self, rfl⟩

end HeaderMap

/-! ## Names -/

namespace headerNames

def protocolVersion := "mcp-protocol-version"
def sessionId := "mcp-session-id"
def mcpMethod := "mcp-method"
def mcpName := "mcp-name"
def paramStart := "mcp-param-"

end headerNames

/-- The parameter a header line mirrors, if it is a parameter's. -/
def paramOf (name : String) : Option String :=
  let start := headerNames.paramStart.toList
  if start.isPrefixOf name.toList then some (String.ofList (name.toList.drop start.length)) else none

/-! ## Validation -/

/-- A response that refuses the request. -/
structure Rejection where
  status : Nat
  code : Int
  message : String
  deriving DecidableEq

def headerMismatchRejection (detail : String) : Rejection :=
  { status := 400, code := -32020, message := "header mismatch: " ++ detail }

/-- The version the body's own `_meta` declares. -/
def declaredVersion (msg : JsonRpcMessage) : Option String :=
  (Meta.entry Meta.keys.protocolVersion msg.params).bind Value.asStr

/-- The body carries the draft's stateless envelope. -/
def declaredDraft (msg : JsonRpcMessage) : Bool :=
  (declaredVersion msg).map ProtocolVersion.fromWire = some .draft

/-- A string field of the request's `params`. -/
def bodyField (req : JsonRpcRequest) (field : String) : Option String :=
  (req.params.bind (·.get field)).bind Value.asStr

/-- The arguments of a `tools/call`. -/
def callArguments (req : JsonRpcRequest) : Option Map :=
  if req.method = "tools/call" then (req.params.bind (·.get "arguments")).bind Value.asObject
  else none

/-- The argument a parameter's header stands for: the first of that name, in
whatever case. -/
def argumentFor (args : Map) (param : String) : Option (String × Value) :=
  args.find? fun e => McpHeaders.eqIgnoreAsciiCase e.1 param

theorem argumentFor_spec {args : Map} {param : String} {e : String × Value}
    (h : argumentFor args param = some e) :
    e ∈ args ∧ McpHeaders.eqIgnoreAsciiCase e.1 param = true := by
  unfold argumentFor at h
  have hcase := List.find?_some h
  exact ⟨List.mem_of_find?_eq_some h, hcase⟩

/-- A version in the header and one in the body must agree. -/
def checkVersion : Option String → Option String → Option Rejection
  | some h, some d =>
      if h ≠ d then
        some (headerMismatchRejection ("MCP-Protocol-Version header (" ++ h ++
          ") does not match the request body (" ++ d ++ ")"))
      else none
  | _, _ => none

def checkMethod (req : JsonRpcRequest) (headers : HeaderMap) : Option Rejection :=
  match (headers.get headerNames.mcpMethod).bind HeaderValue.toStr with
  | none => some (headerMismatchRejection "missing required Mcp-Method header")
  | some m =>
      if m ≠ req.method then
        some (headerMismatchRejection ("Mcp-Method header (" ++ m ++
          ") does not match the request body (" ++ req.method ++ ")"))
      else none

def checkName (req : JsonRpcRequest) (headers : HeaderMap) : Option Rejection :=
  match McpHeaders.nameFieldFor req.method with
  | none => none
  | some field =>
      match (headers.get headerNames.mcpName).bind HeaderValue.toStr with
      | none => some (headerMismatchRejection "missing required Mcp-Name header")
      | some raw =>
          match McpHeaders.decodeValue raw with
          | none => some (headerMismatchRejection "malformed Base64 sentinel in Mcp-Name header")
          | some decoded =>
              if bodyField req field ≠ some decoded then
                some (headerMismatchRejection
                  ("Mcp-Name header does not match the request body's `" ++ field ++ "`"))
              else none

/-- One header line against the arguments; a parameter that names none of them
is ignored. -/
def checkParam (args : Map) (line : String × HeaderValue) : Option Rejection :=
  match paramOf line.1 with
  | none => none
  | some param =>
      match argumentFor args param with
      | none => none
      | some (_, bodyValue) =>
          match line.2.toStr with
          | none =>
              some (headerMismatchRejection
                ("Mcp-Param-" ++ param ++ " header contains invalid characters"))
          | some raw =>
              match McpHeaders.decodeValue raw with
              | none =>
                  some (headerMismatchRejection
                    ("malformed Base64 sentinel in Mcp-Param-" ++ param ++ " header"))
              | some decoded =>
                  match McpHeaders.renderArgument bodyValue with
                  | none =>
                      some (headerMismatchRejection
                        ("Mcp-Param-" ++ param ++ " mirrors a non-primitive body argument"))
                  | some rendered =>
                      if decoded ≠ rendered then
                        some (headerMismatchRejection ("Mcp-Param-" ++ param ++
                          " header does not match the request body argument"))
                      else none

def checkParams (req : JsonRpcRequest) (headers : HeaderMap) : Option Rejection :=
  (callArguments req).bind fun args => headers.findSome? (checkParam args)

/-- `validate_request_headers`; `none` accepts. -/
def validateRequestHeaders (msg : JsonRpcMessage) (headers : HeaderMap) : Option Rejection :=
  let declared := declaredVersion msg
  let headerVersion := (headers.get headerNames.protocolVersion).bind HeaderValue.toStr
  (checkVersion headerVersion declared).or <|
    if declaredDraft msg then
      if headerVersion.isNone then
        some (headerMismatchRejection "missing required MCP-Protocol-Version header")
      else
        match msg with
        | .request req =>
            (checkMethod req headers).or ((checkName req headers).or (checkParams req headers))
        | _ => none
    else none

/-! ## What an accepted request shows -/

theorem checkVersion_eq_none {d : String} {h : Option String} (hsome : h.isSome) :
    checkVersion h (some d) = none ↔ h = some d := by
  obtain ⟨h, rfl⟩ := Option.isSome_iff_exists.mp hsome
  simp [checkVersion]

theorem checkMethod_eq_none {req : JsonRpcRequest} {headers : HeaderMap} :
    checkMethod req headers = none ↔
      (headers.get headerNames.mcpMethod).bind HeaderValue.toStr = some req.method := by
  unfold checkMethod
  cases (headers.get headerNames.mcpMethod).bind HeaderValue.toStr with
  | none => simp
  | some m => simp

theorem checkName_eq_none {req : JsonRpcRequest} {headers : HeaderMap} :
    checkName req headers = none ↔
      ∀ field, McpHeaders.nameFieldFor req.method = some field →
        ∃ s, (headers.get headerNames.mcpName).bind HeaderValue.shown = some s ∧
          bodyField req field = some s := by
  unfold checkName HeaderValue.shown
  cases McpHeaders.nameFieldFor req.method with
  | none => simp
  | some field =>
      rw [← Option.bind_assoc]
      cases (headers.get headerNames.mcpName).bind HeaderValue.toStr with
      | none => simp
      | some raw =>
          cases hdecoded : McpHeaders.decodeValue raw with
          | none => simp [hdecoded]
          | some decoded => simp [hdecoded]

theorem checkParam_eq_none {args : Map} {line : String × HeaderValue} :
    checkParam args line = none ↔
      ∀ param, paramOf line.1 = some param → ∀ e, argumentFor args param = some e →
        ∃ s, line.2.shown = some s ∧ McpHeaders.renderArgument e.2 = some s := by
  unfold checkParam HeaderValue.shown
  cases paramOf line.1 with
  | none => simp
  | some param =>
      cases hfound : argumentFor args param with
      | none => simp [hfound]
      | some e =>
          obtain ⟨key, bodyValue⟩ := e
          cases line.2.toStr with
          | none => simp [hfound]
          | some raw =>
              cases hdecoded : McpHeaders.decodeValue raw with
              | none => simp [hfound, hdecoded]
              | some decoded =>
                  cases hrendered : McpHeaders.renderArgument bodyValue with
                  | none => simp [hfound, hdecoded, hrendered]
                  | some rendered => simp [hfound, hdecoded, hrendered, eq_comm]

theorem checkParams_eq_none {req : JsonRpcRequest} {headers : HeaderMap} :
    checkParams req headers = none ↔
      ∀ args, callArguments req = some args → ∀ line ∈ headers, ∀ param,
        paramOf line.1 = some param → ∀ e, argumentFor args param = some e →
          ∃ s, line.2.shown = some s ∧ McpHeaders.renderArgument e.2 = some s := by
  unfold checkParams
  cases callArguments req with
  | none => simp
  | some args =>
      simp only [Option.bind_some, List.findSome?_eq_none_iff, checkParam_eq_none,
        Option.some.injEq, forall_eq']

section

variable {req : JsonRpcRequest} {headers : HeaderMap}

/-- **What the server accepts**, of a draft request: the first line of each
single header mirrors the body, and so does every line that stands for an
argument. -/
theorem validateRequestHeaders_eq_none (hdraft : declaredDraft (.request req) = true) :
    validateRequestHeaders (.request req) headers = none ↔
      (headers.get headerNames.protocolVersion).bind HeaderValue.toStr =
          declaredVersion (.request req) ∧
        checkMethod req headers = none ∧ checkName req headers = none ∧
          checkParams req headers = none := by
  obtain ⟨d, hd⟩ : ∃ d, declaredVersion (.request req) = some d := by
    unfold declaredDraft at hdraft
    cases hd : declaredVersion (.request req) with
    | none => simp [hd] at hdraft
    | some d => exact ⟨d, rfl⟩
  unfold validateRequestHeaders
  simp only [hdraft, if_true, hd]
  cases hv : (headers.get headerNames.protocolVersion).bind HeaderValue.toStr with
  | none => simp [checkVersion]
  | some h =>
      rw [Option.or_eq_none_iff, checkVersion_eq_none rfl]
      simp [Option.or_eq_none_iff]

/-! ## What every line shows -/

/-- The body's name or URI, for the methods that have one. -/
def mirroredName (req : JsonRpcRequest) : Option String :=
  (McpHeaders.nameFieldFor req.method).bind (bodyField req)

/-- Whichever line an intermediary reads, it reads the body's value. -/
structure Mirrors (req : JsonRpcRequest) (headers : HeaderMap) : Prop where
  version : ∀ v ∈ headers.values headerNames.protocolVersion,
    v.toStr = declaredVersion (.request req)
  method : ∀ v ∈ headers.values headerNames.mcpMethod, v.toStr = some req.method
  name : ∀ v ∈ headers.values headerNames.mcpName,
    ∃ s, v.shown = some s ∧ mirroredName req = some s
  param : ∀ args, callArguments req = some args → ∀ line ∈ headers, ∀ param,
    paramOf line.1 = some param → ∀ e ∈ args, McpHeaders.eqIgnoreAsciiCase e.1 param = true →
      ∃ s, line.2.shown = some s ∧ McpHeaders.renderArgument e.2 = some s

/-- No header says two things: repeated lines agree, `Mcp-Name` stands only
where there is a name, and arguments that differ in case alone render alike
where a header names them. -/
structure Unambiguous (req : JsonRpcRequest) (headers : HeaderMap) : Prop where
  version : ∀ v ∈ headers.values headerNames.protocolVersion,
    ∀ w ∈ headers.values headerNames.protocolVersion, v = w
  method : ∀ v ∈ headers.values headerNames.mcpMethod,
    ∀ w ∈ headers.values headerNames.mcpMethod, v = w
  name : ∀ v ∈ headers.values headerNames.mcpName,
    ∀ w ∈ headers.values headerNames.mcpName, v.shown = w.shown
  named : McpHeaders.nameFieldFor req.method = none → headers.values headerNames.mcpName = []
  param : ∀ args, callArguments req = some args → ∀ line ∈ headers, ∀ param,
    paramOf line.1 = some param →
      ∀ e ∈ args, McpHeaders.eqIgnoreAsciiCase e.1 param = true →
        ∀ e' ∈ args, McpHeaders.eqIgnoreAsciiCase e'.1 param = true →
          McpHeaders.renderArgument e.2 = McpHeaders.renderArgument e'.2

theorem Mirrors.unambiguous (h : Mirrors req headers)
    (hd : (declaredVersion (.request req)).isSome) : Unambiguous req headers where
  version := by
    intro v hv w hw
    obtain ⟨d, hd⟩ := Option.isSome_iff_exists.mp hd
    have hv := h.version v hv
    have hw := h.version w hw
    rw [hd] at hv hw
    exact HeaderValue.toStr_inj hv hw
  method := fun v hv w hw => HeaderValue.toStr_inj (h.method v hv) (h.method w hw)
  name := by
    intro v hv w hw
    obtain ⟨s, hs, hname⟩ := h.name v hv
    obtain ⟨t, ht, hname'⟩ := h.name w hw
    rw [hs, ht, ← hname, hname']
  named := by
    intro hnone
    rw [List.eq_nil_iff_forall_not_mem]
    intro v hv
    obtain ⟨s, -, hname⟩ := h.name v hv
    rw [mirroredName, hnone] at hname
    cases hname
  param := by
    intro args hargs line hline param hparam e he hcase e' he' hcase'
    obtain ⟨s, hs, hrendered⟩ := h.param args hargs line hline param hparam e he hcase
    obtain ⟨t, ht, hrendered'⟩ := h.param args hargs line hline param hparam e' he' hcase'
    rw [hrendered, hrendered', ← hs, ht]

/-- What the first lines show, every line shows, where none says two things. -/
theorem Unambiguous.mirrors (h : Unambiguous req headers)
    (hdraft : declaredDraft (.request req) = true)
    (hacc : validateRequestHeaders (.request req) headers = none) : Mirrors req headers := by
  obtain ⟨hversion, hmethod, hname, hparams⟩ :=
    (validateRequestHeaders_eq_none hdraft).mp hacc
  rw [checkMethod_eq_none] at hmethod
  rw [checkName_eq_none] at hname
  rw [checkParams_eq_none] at hparams
  refine ⟨?_, ?_, ?_, ?_⟩
  · intro v hv
    obtain ⟨w, hw, hget⟩ := HeaderMap.exists_get hv
    rw [hget] at hversion
    rw [h.version v hv w hw]
    exact hversion
  · intro v hv
    obtain ⟨w, hw, hget⟩ := HeaderMap.exists_get hv
    rw [hget] at hmethod
    rw [h.method v hv w hw]
    exact hmethod
  · intro v hv
    obtain ⟨w, hw, hget⟩ := HeaderMap.exists_get hv
    unfold mirroredName
    cases hfield : McpHeaders.nameFieldFor req.method with
    | none =>
        rw [h.named hfield] at hv
        cases hv
    | some field =>
        obtain ⟨s, hs, hbody⟩ := hname field hfield
        rw [hget] at hs
        exact ⟨s, (h.name v hv w hw).trans hs, hbody⟩
  · intro args hargs line hline param hparam e he hcase
    -- the server compared the line with the first such argument
    cases hfirst : argumentFor args param with
    | none =>
        have hnone := List.find?_eq_none.mp hfirst e he
        exact absurd hcase hnone
    | some e' =>
        obtain ⟨he', hcase'⟩ := argumentFor_spec hfirst
        obtain ⟨s, hs, hrendered⟩ := hparams args hargs line hline param hparam e' hfirst
        refine ⟨s, hs, ?_⟩
        rw [h.param args hargs line hline param hparam e he hcase e' he' hcase', hrendered]

/-- **Accepted headers mirror the body** in every line exactly where no header
says two things. -/
theorem accepted_mirrors_iff (hdraft : declaredDraft (.request req) = true)
    (hacc : validateRequestHeaders (.request req) headers = none) :
    Mirrors req headers ↔ Unambiguous req headers := by
  constructor
  · intro h
    refine h.unambiguous ?_
    unfold declaredDraft at hdraft
    cases hd : declaredVersion (.request req) with
    | none => simp [hd] at hdraft
    | some d => rfl
  · exact fun h => h.mirrors hdraft hacc

end

/-! ### A call as a client sends it, and a listing whose method is stated twice -/

/-- ASCII text as a header value. -/
def HeaderValue.ofAscii (s : String) : HeaderValue :=
  ⟨s.toList.map fun c => UInt8.ofNat c.toNat⟩

/-- The stateless envelope of the draft. -/
def draftEnvelope : Value :=
  .object [(Meta.keys.protocolVersion, .string ProtocolVersion.draft.asStr)]

def payment : JsonRpcRequest :=
  { id := .number 1
    method := "tools/call"
    params := some (.object [("name", .string "pay"),
      ("arguments", .object [("region", .string "eu"), ("payee", .string "Zoë")]),
      ("_meta", draftEnvelope)]) }

/-- The payee is not ASCII, and goes in Base64. -/
def paymentHeaders : HeaderMap :=
  [(headerNames.protocolVersion, .ofAscii "2026-07-28"),
    (headerNames.mcpMethod, .ofAscii "tools/call"),
    (headerNames.mcpName, .ofAscii "pay"),
    ("mcp-param-region", .ofAscii "eu"),
    ("mcp-param-payee", .ofAscii "=?base64?Wm/Dqw==?=")]

theorem payment_mirrored : Mirrors payment paymentHeaders := by
  refine (accepted_mirrors_iff (by decide) (by decide)).mpr ⟨?_, ?_, ?_, ?_, ?_⟩
  · decide
  · decide
  · decide
  · decide
  · intro args hargs
    obtain rfl := Option.some.inj hargs
    decide

def listing : JsonRpcRequest :=
  { id := .number 1
    method := "tools/list"
    params := some (.object [("_meta", draftEnvelope)]) }

def listingHeaders : HeaderMap :=
  [(headerNames.protocolVersion, .ofAscii "2026-07-28"),
    (headerNames.mcpMethod, .ofAscii "tools/list")]

/-- **The second line goes unread**: the server takes the request for the listing
it is, and an intermediary can take it for a call. -/
theorem repeated_method_accepted :
    declaredDraft (.request listing) = true ∧
      validateRequestHeaders (.request listing)
        (listingHeaders ++ [(headerNames.mcpMethod, .ofAscii "tools/call")]) = none ∧
      ¬ Mirrors listing (listingHeaders ++ [(headerNames.mcpMethod, .ofAscii "tools/call")]) := by
  refine ⟨by decide, by decide, fun h => ?_⟩
  have hmethod := h.method (.ofAscii "tools/call") (by decide)
  exact absurd hmethod (by decide)

end TurboMcp.Transport
