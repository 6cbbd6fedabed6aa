import TurboMcp.Service.McpHeaders

/-!
# Header parameters

A tool's input schema marks parameters to be mirrored as `Mcp-Param-*` headers.
`headerParamsFromSchema` collects the marks and refuses a schema that misuses
them; `toolCallParams` attaches the mirrored values to a call, as a signal for
the HTTP transport.
-/

namespace TurboMcp.Client

open TurboMcp.Core TurboMcp.Lib TurboMcp.Service

/-- The header-name portion of one marked parameter, and where its value stands
in the arguments. -/
structure HeaderParam where
  header : String
  path : List String
  deriving DecidableEq

/-! ## Scanning a schema -/

section

-- `Debug` of a string
variable (debug : String → String)

/-- `"{path}"` as the messages quote it. -/
def quotedPath (path : List String) : String := debug (".".intercalate path)

/-- The mark of one node, if it has one. -/
def annotated (node : Map) (reachable : Bool) (path : List String) :
    Except String (List HeaderParam) :=
  match Map.get node "x-mcp-header" with
  | none => .ok []
  | some annotation =>
      if !reachable || path.isEmpty then
        .error ("x-mcp-header at " ++ quotedPath debug path ++
          " is not statically reachable via `properties` chains")
      else
        let header := match annotation with
          | .string s => some s
          -- the obsolete form: mirror under the property's own name
          | .bool true => some (path.getLast?.getD "")
          | _ => none
        match header with
        | none => .error ("invalid x-mcp-header value at " ++ quotedPath debug path)
        | some header =>
            if !McpHeaders.isValidHeaderName header then
              .error ("x-mcp-header " ++ debug header ++ " at " ++ quotedPath debug path ++
                " is not a valid header-name token")
            else
              let type := (Map.get node "type").bind Value.asStr
              if type = some "string" ∨ type = some "integer" ∨ type = some "boolean" then
                .ok [{ header, path }]
              else
                .error ("x-mcp-header at " ++ quotedPath debug path ++
                  " requires a primitive string/integer/boolean parameter")

/-- What stands under several nodes, one after the other. -/
def both (first second : Except String (List HeaderParam)) : Except String (List HeaderParam) := do
  let found ← first
  let more ← second
  pure (found ++ more)

mutual
/-- Walk every node; `reachable` along chains of `properties` alone. -/
def scan : Value → Bool → List String → Except String (List HeaderParam)
  | .array items, _, path => scanItems items path
  | .object node, reachable, path =>
      both (annotated debug node reachable path) (scanEntries node reachable path)
  | _, _, _ => .ok []

def scanItems : List Value → List String → Except String (List HeaderParam)
  | [], _ => .ok []
  | item :: items, path => both (scan item false path) (scanItems items path)

def scanEntries : List (String × Value) → Bool → List String → Except String (List HeaderParam)
  | [], _, _ => .ok []
  | (key, child) :: node, reachable, path =>
      both
        (if key = "properties" ∧ reachable = true then scanProperties child path
          else if key ≠ "x-mcp-header" then scan child false path
          else .ok [])
        (scanEntries node reachable path)

/-- The properties of a reachable node. -/
def scanProperties : Value → List String → Except String (List HeaderParam)
  | .object props, path => scanProps props path
  | _, _ => .ok []

def scanProps : List (String × Value) → List String → Except String (List HeaderParam)
  | [], _ => .ok []
  | (name, prop) :: props, path => both (scan prop true (path ++ [name])) (scanProps props path)
end

/-- The first name that stands twice, in whatever case. -/
def repeatedName : List HeaderParam → List String → Option String
  | [], _ => none
  | param :: params, seen =>
      let name := McpHeaders.asciiLower param.header
      if name ∈ seen then some param.header else repeatedName params (name :: seen)

/-- `header_params_from_schema`. -/
def headerParamsFromSchema (inputSchema : Value) : Except String (List HeaderParam) := do
  let found ← scan debug inputSchema true []
  match repeatedName found [] with
  | some header =>
      .error ("duplicate x-mcp-header name " ++ debug header ++
        " (names are case-insensitively unique)")
  | none => .ok found

end

/-! ## Calling a tool -/

/-- Internal `_meta` key of the mirror signal. -/
def headerParamsKey := "io.turbomcp.internal/headerParams"

/-- The argument at a path of properties. -/
def valueAt (arguments : Map) : List String → Option Value
  | [] => none
  | segment :: path =>
      path.foldl (fun value segment => value.bind (·.get segment)) (Map.get arguments segment)

/-- What a parameter's header shows of the arguments; nothing where its value is
absent or not a primitive. -/
def HeaderParam.rendered (arguments : Map) (param : HeaderParam) : Option String :=
  (valueAt arguments param.path).bind McpHeaders.renderArgument

def HeaderParam.mirror (arguments : Map) (param : HeaderParam) : Option (String × Value) :=
  (param.rendered arguments).map fun r => (param.header, .string (McpHeaders.encodeValue r))

/-- The mirror map: header-name portion to encoded value. -/
def mirrors (params : List HeaderParam) (arguments : Map) : Map :=
  (params.filterMap (·.mirror arguments)).foldl (fun m e => Map.insert m e.1 e.2) Map.empty

/-- `tool_call_params`; `params` are the tool's, as `list_tools` learned them. -/
def toolCallParams (params : List HeaderParam) (name : String) (arguments : Map) : Map :=
  let m := mirrors params arguments
  [("name", .string name), ("arguments", .object arguments)] ++
    if m.isEmpty then [] else [("_meta", .object [(headerParamsKey, .object m)])]

/-! ## What a schema yields -/

section

variable {debug : String → String}

theorem both_eq_ok {first second : Except String (List HeaderParam)} {ps : List HeaderParam}
    (h : both first second = .ok ps) :
    ∃ found more, first = .ok found ∧ second = .ok more ∧ ps = found ++ more := by
  cases first with
  | error e => cases h
  | ok found =>
      cases second with
      | error e => cases h
      | ok more =>
          cases h
          exact ⟨found, more, rfl, rfl, rfl⟩

/-- Every parameter found has a name a header can have. -/
def NamesValid (found : Except String (List HeaderParam)) : Prop :=
  ∀ ps, found = .ok ps → ∀ p ∈ ps, McpHeaders.isValidHeaderName p.header = true

theorem namesValid_nil : NamesValid (.ok []) := by
  intro ps h p hp
  cases h
  cases hp

theorem NamesValid.both {first second : Except String (List HeaderParam)}
    (hfirst : NamesValid first) (hsecond : NamesValid second) :
    NamesValid (both first second) := by
  intro ps h p hp
  obtain ⟨found, more, hfound, hmore, rfl⟩ := both_eq_ok h
  rw [List.mem_append] at hp
  rcases hp with hp | hp
  · exact hfirst found hfound p hp
  · exact hsecond more hmore p hp

theorem namesValid_annotated (node : Map) (reachable : Bool) (path : List String) :
    NamesValid (annotated debug node reachable path) := by
  unfold annotated
  split
  · exact namesValid_nil
  · split
    · exact nofun
    · simp only
      split
      · exact nofun
      · rename_i header hheader
        split
        · exact nofun
        · rename_i hvalid
          split
          · intro ps h p hp
            cases h
            rw [List.mem_singleton] at hp
            subst hp
            simpa using hvalid
          · exact nofun

mutual
theorem namesValid_scan : ∀ (v : Value) (reachable : Bool) (path : List String),
    NamesValid (scan debug v reachable path)
  | .array items, _, path => by
      rw [scan]
      exact namesValid_scanItems items path
  | .object node, reachable, path => by
      rw [scan]
      exact (namesValid_annotated node reachable path).both
        (namesValid_scanEntries node reachable path)
  | .null, _, _ | .bool _, _, _ | .int _, _, _ | .float _, _, _ | .string _, _, _ => by
      simpa only [scan] using namesValid_nil

theorem namesValid_scanItems : ∀ (items : List Value) (path : List String),
    NamesValid (scanItems debug items path)
  | [], _ => namesValid_nil
  | item :: items, path => by
      rw [scanItems]
      exact (namesValid_scan item false path).both (namesValid_scanItems items path)

theorem namesValid_scanEntries : ∀ (node : List (String × Value)) (reachable : Bool)
    (path : List String), NamesValid (scanEntries debug node reachable path)
  | [], _, _ => namesValid_nil
  | (key, child) :: node, reachable, path => by
      rw [scanEntries]
      refine NamesValid.both ?_ (namesValid_scanEntries node reachable path)
      split
      · exact namesValid_scanProperties child path
      · split
        · exact namesValid_scan child false path
        · exact namesValid_nil

theorem namesValid_scanProperties : ∀ (v : Value) (path : List String),
    NamesValid (scanProperties debug v path)
  | .object props, path => by
      rw [scanProperties]
      exact namesValid_scanProps props path
  | .null, _ | .bool _, _ | .int _, _ | .float _, _ | .string _, _ | .array _, _ => by
      simpa only [scanProperties] using namesValid_nil

theorem namesValid_scanProps : ∀ (props : List (String × Value)) (path : List String),
    NamesValid (scanProps debug props path)
  | [], _ => namesValid_nil
  | (name, prop) :: props, path => by
      rw [scanProps]
      exact (namesValid_scan prop true (path ++ [name])).both (namesValid_scanProps props path)
end

theorem nodup_of_repeatedName {ps : List HeaderParam} {seen : List String}
    (h : repeatedName ps seen = none) :
    (ps.map fun p => McpHeaders.asciiLower p.header).Nodup ∧
      ∀ p ∈ ps, McpHeaders.asciiLower p.header ∉ seen := by
  induction ps generalizing seen with
  | nil => simp
  | cons p ps ih =>
      unfold repeatedName at h
      simp only at h
      split at h
      · cases h
      · rename_i hnew
        obtain ⟨hnodup, hseen⟩ := ih h
        refine ⟨?_, ?_⟩
        · rw [List.map_cons, List.nodup_cons]
          refine ⟨?_, hnodup⟩
          intro hmem
          obtain ⟨q, hq, heq⟩ := List.mem_map.mp hmem
          exact hseen q hq (heq ▸ List.mem_cons_self)
        · intro q hq
          rcases List.mem_cons.mp hq with rfl | hq
          · exact hnew
          · exact fun hmem => hseen q hq (List.mem_cons_of_mem _ hmem)

theorem repeatedName_of_nodup {ps : List HeaderParam} {seen : List String}
    (h : (ps.map fun p => McpHeaders.asciiLower p.header).Nodup)
    (hseen : ∀ p ∈ ps, McpHeaders.asciiLower p.header ∉ seen) : repeatedName ps seen = none := by
  induction ps generalizing seen with
  | nil => rfl
  | cons p ps ih =>
      obtain ⟨hnew, hnodup⟩ := List.nodup_cons.mp h
      unfold repeatedName
      simp only
      rw [if_neg (hseen p List.mem_cons_self)]
      apply ih hnodup
      intro q hq hmem
      rcases List.mem_cons.mp hmem with heq | hmem
      · exact hnew (List.mem_map.mpr ⟨q, hq, heq⟩)
      · exact hseen q (List.mem_cons_of_mem _ hq) hmem

/-- **An accepted schema**: the names are valid, and distinct whatever their
case. -/
theorem headerParamsFromSchema_spec {inputSchema : Value} {ps : List HeaderParam}
    (h : headerParamsFromSchema debug inputSchema = .ok ps) :
    (∀ p ∈ ps, McpHeaders.isValidHeaderName p.header = true) ∧
      (ps.map fun p => McpHeaders.asciiLower p.header).Nodup := by
  unfold headerParamsFromSchema at h
  cases hscan : scan debug inputSchema true [] with
  | error e =>
      rw [hscan] at h
      cases h
  | ok found =>
      rw [hscan] at h
      change (match repeatedName found [] with
        | some header => Except.error _
        | none => Except.ok found) = .ok ps at h
      split at h
      · cases h
      · rename_i hnone
        cases h
        exact ⟨namesValid_scan inputSchema true [] _ hscan, (nodup_of_repeatedName hnone).1⟩

end

theorem mirrors_eq {ps : List HeaderParam}
    (h : (ps.map fun p => McpHeaders.asciiLower p.header).Nodup) (arguments : Map) :
    mirrors ps arguments = ps.filterMap (·.mirror arguments) := by
  have hkeys : ((ps.filterMap (·.mirror arguments)).map Prod.fst).Nodup := by
    have hsub : ((ps.filterMap (·.mirror arguments)).map Prod.fst).Sublist
        (ps.map (·.header)) := by
      induction ps with
      | nil => exact List.Sublist.refl _
      | cons p ps ih =>
          have ih := ih (List.nodup_cons.mp h).2
          rw [List.filterMap_cons]
          cases hmirror : p.mirror arguments with
          | none => exact ih.cons _
          | some e =>
              have hheader : e.1 = p.header := by
                unfold HeaderParam.mirror at hmirror
                obtain ⟨r, -, rfl⟩ := Option.map_eq_some_iff.mp hmirror
                rfl
              simp only [List.map_cons, hheader]
              exact ih.cons_cons _
    refine hsub.nodup (List.Nodup.of_map McpHeaders.asciiLower ?_)
    rwa [List.map_map]
  unfold mirrors
  exact Entries.foldl_insert_of_nodup (m := []) hkeys

end TurboMcp.Client
