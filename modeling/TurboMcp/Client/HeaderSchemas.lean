import Mathlib.Data.Set.Insert
import TurboMcp.Client.HeaderParams
import TurboMcp.Core.Nesting

/-!
# Header marks in schemas

`x-mcp-header` is a keyword of schemas: it marks the parameter whose schema it
stands in.  The scan walks the whole document instead, so that a key of plain data,
a property or a definition of that name counts as a mark on what it stands in, save
among the properties of a reachable node.  Where no such key is about, the scan
finds what is marked, and refuses exactly the misuses.
-/

namespace TurboMcp.Client

open TurboMcp.Core TurboMcp.Lib TurboMcp.Service

namespace HeaderParams

/-- Where a node stands: at the end of a chain of `properties`, or beside such chains. -/
abbrev Place := Option (List String)

def mark := "x-mcp-header"

/-! ## Schema nodes -/

/-- Keywords with a schema for their value. -/
def schemaKeywords : List String :=
  ["items", "additionalItems", "unevaluatedItems", "contains", "additionalProperties",
    "unevaluatedProperties", "propertyNames", "not", "if", "then", "else", "contentSchema"]

/-- Keywords with a list of schemas. -/
def listKeywords : List String := ["allOf", "anyOf", "oneOf", "prefixItems", "items"]

/-- Keywords with schemas under names. -/
def mapKeywords : List String :=
  ["properties", "patternProperties", "$defs", "definitions", "dependentSchemas", "dependencies"]

/-- The schemas in the value of a keyword. -/
def keywordSchemas (key : String) : Value → List Value
  | .array schemas => if key ∈ listKeywords then schemas else []
  | .object m =>
      if key ∈ mapKeywords then m.map Prod.snd
      else if key ∈ schemaKeywords then [.object m] else []
  | _ => []

/-- The properties of a node at the end of a chain. -/
def properties (path : List String) : Value → List (Place × Value)
  | .object props => props.map fun prop => (some (path ++ [prop.1]), prop.2)
  | _ => []

/-- The schemas directly in a schema. -/
def subschemas : Place × Value → List (Place × Value)
  | (place, .object m) =>
      m.flatMap fun e => match place with
        | some path =>
            if e.1 = "properties" then properties path e.2
            else (keywordSchemas e.1 e.2).map (none, ·)
        | none => (keywordSchemas e.1 e.2).map (none, ·)
  | _ => []

/-- A node of the schema, root included. -/
def Node (schema : Value) (place : Place) (m : Map) : Prop :=
  Meets subschemas (some [], schema) (place, .object m)

/-! ## Marks -/

/-- The name a mark gives: its own, or by the obsolete `true` the property's. -/
def headerOf (path : List String) : Value → Option String
  | .string s => some s
  | .bool true => path.getLast?
  | _ => none

/-- `string`, `integer` or `boolean`. -/
def Primitive (m : Map) : Prop :=
  Map.get m "type" = some (.string "string") ∨ Map.get m "type" = some (.string "integer") ∨
    Map.get m "type" = some (.string "boolean")

/-- A mark where none may be: on a node that no chain of properties reaches, on what is
not a parameter, with a value that is no name or no token, on a parameter of another
type. -/
inductive Misused : Place → Map → Value → Prop
  | unreachable {m sign} : Misused none m sign
  | root {m sign} : Misused (some []) m sign
  | wrongType {path m sign} : headerOf path sign = none →
      Misused (some path) m sign
  | notToken {path m sign header} : headerOf path sign = some header →
      McpHeaders.isValidHeaderName header = false → Misused (some path) m sign
  | notPrimitive {path m sign} : ¬ Primitive m → Misused (some path) m sign

/-- The parameter is marked, at its path, with its header. -/
def Marked (schema : Value) (param : HeaderParam) : Prop :=
  ∃ m sign, Node schema (some param.path) m ∧ Map.get m mark = some sign ∧
    headerOf param.path sign = some param.header

/-- Some mark of the schema is misused, or two bear one name, whatever its case. -/
def Bad (schema : Value) : Prop :=
  (∃ place m sign, Node schema place m ∧ Map.get m mark = some sign ∧
    Misused place m sign) ∨
  ∃ p q, Marked schema p ∧ Marked schema q ∧ p.path ≠ q.path ∧
    McpHeaders.asciiLower p.header = McpHeaders.asciiLower q.header

/-- The collection is exact: it fails on a bad schema and on no other, and otherwise
returns each marked parameter, once. -/
structure Exact (debug : String → String) (schema : Value) : Prop where
  fails_iff : (∃ e, headerParamsFromSchema debug schema = .error e) ↔ Bad schema
  collected : ∀ ps, headerParamsFromSchema debug schema = .ok ps →
    (ps.map (·.path)).Nodup ∧ ∀ p, p ∈ ps ↔ Marked schema p

/-! ## The document -/

/-- Whatever stands directly in a value: parameters by their paths, and the rest, but for
what a mark says and for `properties` that are no object. -/
def inside : Place × Value → List (Place × Value)
  | (_, .array items) => items.map (none, ·)
  | (place, .object m) =>
      m.flatMap fun e => match place with
        | some path =>
            if e.1 = "properties" then properties path e.2
            else if e.1 = mark then [] else [(none, e.2)]
        | none => if e.1 = mark then [] else [(none, e.2)]
  | _ => []

/-- An object that is no schema node bears the key: a piece of data, the definitions, or
properties below an array or a combination. -/
def Lookalike (schema : Value) : Prop :=
  ∃ m, Meets inside (some [], schema) (none, .object m) ∧ (Map.get m mark).isSome ∧
    ¬ Node schema none m

/-! ## What the scan comes to -/

section

variable (debug : String → String)

/-- The results of several scans, one after the other. -/
def gather : List (Except String (List HeaderParam)) → Except String (List HeaderParam)
  | [] => .ok []
  | first :: rest => both first (gather rest)

/-- The scan of a value at a place; `path` is the chain followed so far. -/
def scanAt (path : List String) (point : Place × Value) : Except String (List HeaderParam) :=
  scan debug point.2 point.1.isSome (point.1.getD path)

/-- What the scan makes of the point itself. -/
def ownMark (path : List String) : Place × Value → Except String (List HeaderParam)
  | (place, .object m) => annotated debug m place.isSome (place.getD path)
  | _ => .ok []

theorem scanItems_eq (items : List Value) (path : List String) :
    scanItems debug items path = gather (items.map fun item => scan debug item false path) := by
  induction items with
  | nil => rfl
  | cons item items ih => rw [scanItems, ih, List.map_cons, gather]

theorem scanProps_eq (props : Map) (path : List String) :
    scanProps debug props path =
      gather (props.map fun prop => scan debug prop.2 true (path ++ [prop.1])) := by
  induction props with
  | nil => rfl
  | cons prop props ih => rw [scanProps, ih, List.map_cons, gather]

theorem ok_nil_both (rest : Except String (List HeaderParam)) : both (.ok []) rest = rest := by
  rcases rest with e | found <;> rfl

theorem both_ok_nil (first : Except String (List HeaderParam)) : both first (.ok []) = first := by
  rcases first with e | found
  · rfl
  · show Except.ok (found ++ []) = Except.ok found
    rw [List.append_nil]

theorem both_assoc (first second third : Except String (List HeaderParam)) :
    both (both first second) third = both first (both second third) := by
  rcases first with e | found
  · rfl
  · rcases second with e | more
    · rfl
    · rcases third with e | rest
      · rfl
      · show Except.ok (found ++ more ++ rest) = Except.ok (found ++ (more ++ rest))
        rw [List.append_assoc]

theorem gather_append (first rest : List (Except String (List HeaderParam))) :
    gather (first ++ rest) = both (gather first) (gather rest) := by
  induction first with
  | nil => exact (ok_nil_both (gather rest)).symm
  | cons result first ih => rw [List.cons_append, gather, ih, gather, both_assoc]

theorem scanProperties_eq (v : Value) (path : List String) :
    scanProperties debug v path = gather ((properties path v).map (scanAt debug path)) := by
  rcases v with _ | _ | _ | _ | _ | _ | props
  iterate 6 rfl
  · rw [scanProperties, scanProps_eq, properties, List.map_map]
    rfl

theorem gather_singleton (result : Except String (List HeaderParam)) : gather [result] = result :=
  both_ok_nil result

/-- What stands under any other keyword is walked as the rest of the document is. -/
theorem scanOther_eq (path : List String) (key : String) (child : Value) :
    (if key ≠ "x-mcp-header" then scan debug child false path else .ok []) =
      gather ((if key = mark then [] else [(none, child)]).map (scanAt debug path)) := by
  unfold mark
  by_cases hkey : key = "x-mcp-header"
  · rw [if_pos hkey, if_neg fun h => h hkey]
    rfl
  · rw [if_neg hkey, if_pos hkey]
    exact (gather_singleton _).symm

theorem scanEntries_eq (path : List String) (place : Place) (m : Map) :
    scanEntries debug m place.isSome (place.getD path) =
      gather ((inside (place, .object m)).map (scanAt debug (place.getD path))) := by
  induction m with
  | nil => rfl
  | cons e m ih =>
      obtain ⟨key, child⟩ := e
      rw [scanEntries, ih]
      show _ = gather (((_ : List (Place × Value)) ++ inside (place, .object m)).map _)
      rw [List.map_append, gather_append]
      congr 1
      rcases place with _ | here
      · rw [if_neg (by simp)]
        exact scanOther_eq debug path key child
      · by_cases hkey : key = "properties"
        · rw [if_pos ⟨hkey, rfl⟩]
          simp only [hkey, if_true]
          exact scanProperties_eq debug child here
        · rw [if_neg fun h => hkey h.1]
          simp only [hkey, if_false]
          exact scanOther_eq debug here key child

/-- **The scan** is the point's own mark and then the scans of what stands inside. -/
theorem scanAt_eq (path : List String) (point : Place × Value) :
    scanAt debug path point =
      both (ownMark debug path point)
        (gather ((inside point).map (scanAt debug (point.1.getD path)))) := by
  obtain ⟨place, v⟩ := point
  rcases v with _ | _ | _ | _ | _ | items | m
  iterate 5 rfl
  · show scan debug (.array items) place.isSome (place.getD path) = both (.ok []) _
    rw [scan, scanItems_eq, inside, List.map_map, ok_nil_both]
    rfl
  · show scan debug (.object m) place.isSome (place.getD path) = _
    rw [scan, scanEntries_eq]
    rfl

end

/-! ## What the scan finds -/

section

variable {debug : String → String}

/-- What a scan of some points comes to: it refuses one of them, or all are fine and what
is marked among them is found. -/
inductive Finds (points : Set (Place × Value)) : Except String (List HeaderParam) → Prop
  | refused {e place m sign} : (place, Value.object m) ∈ points →
      Map.get m mark = some sign → Misused place m sign → Finds points (.error e)
  | found {ps} :
      (∀ place m sign, (place, Value.object m) ∈ points →
        Map.get m mark = some sign → ¬ Misused place m sign) →
      (∀ p : HeaderParam, p ∈ ps ↔ ∃ m sign, (some p.path, Value.object m) ∈ points ∧
        Map.get m mark = some sign ∧ headerOf p.path sign = some p.header) →
      Finds points (.ok ps)

theorem finds_empty : Finds ∅ (.ok []) := by
  refine .found ?_ ?_
  · rintro place m sign ⟨⟩
  · intro p
    constructor
    · rintro ⟨⟩
    · rintro ⟨m, sign, ⟨⟩, _⟩

theorem Finds.both {points points' : Set (Place × Value)}
    {first second : Except String (List HeaderParam)} (hfirst : Finds points first)
    (hsecond : Finds points' second) : Finds (points ∪ points') (both first second) := by
  rcases hfirst with ⟨hmem, hget, hbad⟩ | ⟨hfine, hfound⟩
  · exact .refused (.inl hmem) hget hbad
  · rcases hsecond with ⟨hmem, hget, hbad⟩ | ⟨hfine', hfound'⟩
    · exact .refused (.inr hmem) hget hbad
    · refine .found ?_ ?_
      · rintro place m sign (hmem | hmem)
        · exact hfine place m sign hmem
        · exact hfine' place m sign hmem
      · intro p
        rw [List.mem_append, hfound, hfound']
        constructor
        · rintro (⟨m, sign, hmem, h⟩ | ⟨m, sign, hmem, h⟩)
          · exact ⟨m, sign, .inl hmem, h⟩
          · exact ⟨m, sign, .inr hmem, h⟩
        · rintro ⟨m, sign, hmem | hmem, h⟩
          · exact .inl ⟨m, sign, hmem, h⟩
          · exact .inr ⟨m, sign, hmem, h⟩

theorem finds_gather {points : List (Place × Value)}
    {below : Place × Value → Set (Place × Value)}
    {scanned : Place × Value → Except String (List HeaderParam)}
    (h : ∀ c ∈ points, Finds (below c) (scanned c)) :
    Finds {a | ∃ c ∈ points, a ∈ below c} (gather (points.map scanned)) := by
  induction points with
  | nil =>
      have hempty : {a | ∃ c ∈ ([] : List (Place × Value)), a ∈ below c} = ∅ := by
        ext a
        simp
      rw [hempty]
      exact finds_empty
  | cons c points ih =>
      have hcons : {a | ∃ d ∈ c :: points, a ∈ below d} =
          below c ∪ {a | ∃ d ∈ points, a ∈ below d} := by
        ext a
        simp
      rw [hcons]
      refine (h c List.mem_cons_self).both (ih ?_)
      intro d hd
      exact h d (List.mem_cons_of_mem _ hd)

/-- A point that is no marked object has nothing to be found or refused. -/
theorem finds_unmarked {point : Place × Value}
    (h : ∀ m, point.2 = .object m → Map.get m mark = none) : Finds {point} (.ok []) := by
  have hnone : ∀ place m sign, (place, Value.object m) ∈ ({point} : Set (Place × Value)) →
      ¬ Map.get m mark = some sign := by
    rintro place m sign hmem hget
    rw [Set.mem_singleton_iff] at hmem
    rw [h m (congrArg Prod.snd hmem).symm] at hget
    cases hget
  refine .found ?_ ?_
  · intro place m sign hmem hget
    exact absurd hget (hnone place m sign hmem)
  · intro p
    constructor
    · rintro ⟨⟩
    · rintro ⟨m, sign, hmem, hget, -⟩
      exact absurd hget (hnone _ m sign hmem)

/-- The name as the scan reads it off a mark. -/
theorem header_of_mark {path : List String} (hpath : path ≠ []) (sign : Value) :
    (match sign with
      | .string s => some s
      | .bool true => some (path.getLast?.getD "")
      | _ => none) = headerOf path sign := by
  have hlast : some (path.getLast?.getD "") = path.getLast? := by
    rw [List.getLast?_eq_some_getLast hpath]
    rfl
  unfold headerOf
  split <;> first | rfl | exact hlast

theorem primitive_iff (m : Map) :
    Primitive m ↔ (Map.get m "type").bind Value.asStr = some "string" ∨
      (Map.get m "type").bind Value.asStr = some "integer" ∨
      (Map.get m "type").bind Value.asStr = some "boolean" := by
  have hstr : ∀ s, (Map.get m "type").bind Value.asStr = some s ↔
      Map.get m "type" = some (.string s) := by
    intro s
    rcases Map.get m "type" with _ | v
    · simp
    · rcases v <;> simp [Value.asStr]
  simp only [Primitive, hstr]

theorem finds_marked {path : List String} {m : Map} {sign : Value} {header : String}
    (hget : Map.get m mark = some sign) (hheader : headerOf path sign = some header)
    (hfine : ¬ Misused (some path) m sign) :
    Finds {(some path, .object m)} (.ok [{ header, path }]) := by
  refine .found ?_ ?_
  · rintro place m' sign' ⟨⟩ hget'
    cases hget.symm.trans hget'
    exact hfine
  · intro p
    rw [List.mem_singleton]
    constructor
    · rintro rfl
      exact ⟨m, sign, rfl, hget, hheader⟩
    · obtain ⟨header', path'⟩ := p
      rintro ⟨m', sign', ⟨⟩, hget', hheader'⟩
      cases hget.symm.trans hget'
      cases hheader.symm.trans hheader'
      rfl

theorem finds_annotated {path : List String} {place : Place} {m : Map} {sign : Value}
    (hget : Map.get m mark = some sign) :
    Finds {(place, .object m)} (annotated debug m place.isSome (place.getD path)) := by
  have hmem : (place, Value.object m) ∈ ({(place, .object m)} : Set (Place × Value)) := rfl
  have hget' : Map.get m "x-mcp-header" = some sign := hget
  unfold annotated
  rw [hget']
  rcases place with _ | here
  · exact .refused hmem hget .unreachable
  · by_cases hroot : here = []
    · subst hroot
      exact .refused hmem hget .root
    · have hreached : (!(some here : Place).isSome || ((some here).getD path).isEmpty) = false := by
        simpa using hroot
      simp only [hreached, Bool.false_eq_true, if_false]
      split
      · rename_i hnone
        have hheader : headerOf here sign = none := (header_of_mark hroot sign).symm.trans hnone
        exact .refused hmem hget (.wrongType hheader)
      · rename_i header hsome
        have hheader : headerOf here sign = some header :=
          (header_of_mark hroot sign).symm.trans hsome
        split
        · rename_i htoken
          exact .refused hmem hget (.notToken hheader (by simpa using htoken))
        · rename_i htoken
          split
          · rename_i htype
            refine finds_marked hget hheader ?_
            intro hbad
            cases hbad with
            | root => exact hroot rfl
            | wrongType hnone => cases hheader.symm.trans hnone
            | notToken hheader' hinvalid =>
                cases hheader.symm.trans hheader'
                exact htoken (by rw [hinvalid]; rfl)
            | notPrimitive hprimitive => exact hprimitive ((primitive_iff m).mpr htype)
          · rename_i htype
            exact .refused hmem hget (.notPrimitive (by rwa [primitive_iff]))

theorem finds_ownMark (path : List String) (point : Place × Value) :
    Finds {point} (ownMark debug path point) := by
  obtain ⟨place, v⟩ := point
  rcases v with _ | _ | _ | _ | _ | _ | m
  iterate 6 exact finds_unmarked fun m hm => by cases hm
  · rcases hget : Map.get m mark with _ | sign
    · have hnone : annotated debug m place.isSome (place.getD path) = .ok [] := by
        have hget' : Map.get m "x-mcp-header" = none := hget
        unfold annotated
        rw [hget']
      rw [ownMark, hnone]
      refine finds_unmarked ?_
      intro m' hm'
      cases hm'
      exact hget
    · exact finds_annotated hget

/-! ## Going down -/

theorem mem_properties {path : List String} {v : Value} {c : Place × Value}
    (h : c ∈ properties path v) : ∃ props name, v = .object props ∧ (name, c.2) ∈ props ∧
      c.1 = some (path ++ [name]) := by
  rcases v with _ | _ | _ | _ | _ | _ | props
  iterate 6 cases h
  · obtain ⟨prop, hprop, rfl⟩ := List.mem_map.mp h
    exact ⟨props, prop.1, rfl, hprop, rfl⟩

/-- What stands in a node: a parameter by its path, or something beside the chains. -/
theorem mem_inside_object {place : Place} {m : Map} {c : Place × Value}
    (h : c ∈ inside (place, .object m)) :
    (∃ path props name, place = some path ∧ ("properties", Value.object props) ∈ m ∧
      (name, c.2) ∈ props ∧ c.1 = some (path ++ [name])) ∨
    (∃ key, (key, c.2) ∈ m ∧ key ≠ mark ∧ (place = none ∨ key ≠ "properties") ∧ c.1 = none) := by
  obtain ⟨⟨key, child⟩, he, hc⟩ := List.mem_flatMap.mp h
  rcases place with _ | path
  · by_cases hkey : key = mark
    · simp only [hkey, if_true] at hc
      cases hc
    · simp only [hkey, if_false, List.mem_singleton] at hc
      subst hc
      exact .inr ⟨key, he, hkey, .inl rfl, rfl⟩
  · by_cases hproperties : key = "properties"
    · subst hproperties
      simp only [if_true] at hc
      obtain ⟨props, name, rfl, hname, hplace⟩ := mem_properties hc
      exact .inl ⟨path, props, name, rfl, he, hname, hplace⟩
    · by_cases hkey : key = mark
      · simp only [hkey, if_true] at hc
        split at hc
        · rename_i hmark
          exact absurd (hkey.trans hmark) hproperties
        · cases hc
      · simp only [hproperties, hkey, if_false, List.mem_singleton] at hc
        subst hc
        exact .inr ⟨key, he, hkey, .inr hproperties, rfl⟩

theorem sizeOf_inside {point c : Place × Value} (h : c ∈ inside point) :
    sizeOf c.2 < sizeOf point.2 := by
  obtain ⟨place, v⟩ := point
  rcases v with _ | _ | _ | _ | _ | items | m
  iterate 5 cases h
  · obtain ⟨item, hitem, rfl⟩ := List.mem_map.mp h
    exact Value.sizeOf_part hitem
  · rcases mem_inside_object h with ⟨_, props, name, -, he, hname, -⟩ | ⟨key, he, -, -, -⟩
    · exact (Value.sizeOf_entry hname).trans (Value.sizeOf_entry he)
    · exact Value.sizeOf_entry he

/-- **The scan finds** what is marked anywhere below, and refuses what is misused there. -/
theorem finds_scanAt (path : List String) (point : Place × Value) :
    Finds {a | Meets inside point a} (scanAt debug path point) := by
  induction hn : sizeOf point.2 using Nat.strongRecOn generalizing point path with
  | ind n ih =>
      have hsplit : {a | Meets inside point a} =
          {point} ∪ {a | ∃ c ∈ inside point, a ∈ {b | Meets inside c b}} := by
        ext a
        exact meets_iff
      rw [scanAt_eq, hsplit]
      refine (finds_ownMark path point).both (finds_gather ?_)
      intro c hc
      exact ih _ (hn ▸ sizeOf_inside hc) _ c rfl

/-! ## Each parameter once -/

/-- A path goes on from where a point stands. -/
def Onward (point : Place × Value) (path : List String) : Prop :=
  ∃ start, point.1 = some start ∧ start <+: path

theorem onward_of_inside {point c : Place × Value} (hc : c ∈ inside point) {path : List String}
    (h : Onward c path) : ∃ start, point.1 = some start ∧ start <+: path ∧ start ≠ path := by
  obtain ⟨place, v⟩ := point
  obtain ⟨_, hplace, hbegins⟩ := h
  rcases v with _ | _ | _ | _ | _ | items | m
  iterate 5 cases hc
  · obtain ⟨item, -, rfl⟩ := List.mem_map.mp hc
    cases hplace
  · rcases mem_inside_object hc with ⟨start, _, name, rfl, -, -, hname⟩ | ⟨_, -, -, -, hnone⟩
    · cases hname.symm.trans hplace
      refine ⟨start, rfl, (List.prefix_append start [name]).trans hbegins, ?_⟩
      rintro rfl
      have hlength := hbegins.length_le
      rw [List.length_append, List.length_singleton] at hlength
      omega
    · cases hnone.symm.trans hplace

theorem not_onward {point : Place × Value} (h : point.1 = none) (path : List String) :
    ¬ Onward point path := by
  rintro ⟨start, hstart, -⟩
  cases h.symm.trans hstart

/-- Parameters with distinct names go different ways. -/
theorem pairwise_properties {path : List String} {props : Map} (h : props.keys.Nodup) :
    (properties path (.object props)).Pairwise fun c d => ∀ q, Onward c q → ¬ Onward d q := by
  refine List.pairwise_map.mpr (List.Pairwise.imp ?_ (List.pairwise_map.mp h))
  rintro ⟨name, v⟩ ⟨name', w⟩ hne q ⟨_, hstart, hbegins⟩ ⟨_, hstart', hbegins'⟩
  cases hstart
  cases hstart'
  have hsame : path ++ [name] = path ++ [name'] := by
    apply (List.prefix_of_prefix_length_le hbegins hbegins' (by simp)).eq_of_length
    simp
  exact hne (List.singleton_inj.mp (List.append_cancel_left hsame))

theorem inside_object (place : Place) (m : Map) :
    inside (place, .object m) = m.flatMap fun e => inside (place, .object [e]) := by
  simp only [inside, List.flatMap_singleton]

/-- Only `properties` leads on along a chain. -/
theorem properties_of_onward {place : Place} {e : String × Value} {c : Place × Value}
    (hc : c ∈ inside (place, .object [e])) {path : List String} (h : Onward c path) :
    e.1 = "properties" := by
  rcases mem_inside_object hc with ⟨_, props, _, -, he, -, -⟩ | ⟨_, -, -, -, hnone⟩
  · rw [List.mem_singleton] at he
    rw [← he]
  · exact absurd h (not_onward hnone path)

/-- Two parameters of a node go different ways. -/
theorem pairwise_inside {point : Place × Value} (h : point.2.Keyed) :
    (inside point).Pairwise fun c d => ∀ path, Onward c path → ¬ Onward d path := by
  obtain ⟨place, v⟩ := point
  rcases v with _ | _ | _ | _ | _ | items | m
  iterate 5 exact List.Pairwise.nil
  · refine List.pairwise_map.mpr (List.pairwise_of_forall ?_)
    intro item item' path hitem
    exact absurd hitem (not_onward rfl path)
  · rw [inside_object]
    refine List.pairwise_flatMap.mpr ⟨?_, List.Pairwise.imp ?_ (List.pairwise_map.mp h.keys)⟩
    · intro e he
      by_cases hproperties : ∃ path props, place = some path ∧ e = ("properties", .object props)
      · obtain ⟨path, props, rfl, rfl⟩ := hproperties
        have hinside : inside (some path, .object [("properties", .object props)]) =
            properties path (.object props) := by
          simp [inside]
        rw [hinside]
        exact pairwise_properties (h.entry he).keys
      · refine List.pairwise_of_forall_mem_list ?_
        intro c hc d _ path honward
        rcases mem_inside_object hc with
          ⟨path', props, _, hplace, hmem, -, -⟩ | ⟨_, -, -, -, hnone⟩
        · exact absurd ⟨path', props, hplace, (List.mem_singleton.mp hmem).symm⟩ hproperties
        · exact absurd honward (not_onward hnone path)
    · intro e e' hne c hc d hd path honward honward'
      exact hne ((properties_of_onward hc honward).trans (properties_of_onward hd honward').symm)

/-- The paths found are distinct, and go on from the point. -/
def Apart (point : Place × Value) (result : Except String (List HeaderParam)) : Prop :=
  ∀ ps, result = .ok ps → (ps.map (·.path)).Nodup ∧ ∀ p ∈ ps, Onward point p.path

theorem nodup_gather {points : List (Place × Value)}
    {scanned : Place × Value → Except String (List HeaderParam)}
    (hpairwise : points.Pairwise fun c d => ∀ path, Onward c path → ¬ Onward d path)
    (h : ∀ c ∈ points, Apart c (scanned c)) {ps : List HeaderParam}
    (hps : gather (points.map scanned) = .ok ps) :
    (ps.map (·.path)).Nodup ∧ ∀ p ∈ ps, ∃ c ∈ points, Onward c p.path := by
  induction points generalizing ps with
  | nil =>
      cases hps
      exact ⟨List.nodup_nil, fun p hp => absurd hp List.not_mem_nil⟩
  | cons c points ih =>
      obtain ⟨hapart, hrest⟩ := List.pairwise_cons.mp hpairwise
      obtain ⟨found, more, hfound, hmore, rfl⟩ := both_eq_ok hps
      obtain ⟨hnodup, honward⟩ := h c List.mem_cons_self found hfound
      obtain ⟨hnodup', honward'⟩ :=
        ih hrest (fun d hd => h d (List.mem_cons_of_mem _ hd)) hmore
      constructor
      · rw [List.map_append]
        refine hnodup.append hnodup' ?_
        intro path hpath hpath'
        obtain ⟨p, hp, rfl⟩ := List.mem_map.mp hpath
        obtain ⟨q, hq, hsame⟩ := List.mem_map.mp hpath'
        obtain ⟨d, hd, hqd⟩ := honward' q hq
        exact hapart d hd p.path (honward p hp) (hsame ▸ hqd)
      · intro p hp
        rcases List.mem_append.mp hp with hp | hp
        · exact ⟨c, List.mem_cons_self, honward p hp⟩
        · obtain ⟨d, hd, hpd⟩ := honward' p hp
          exact ⟨d, List.mem_cons_of_mem _ hd, hpd⟩

theorem keyed_inside {point c : Place × Value} (h : point.2.Keyed) (hc : c ∈ inside point) :
    c.2.Keyed := by
  obtain ⟨place, v⟩ := point
  rcases v with _ | _ | _ | _ | _ | items | m
  iterate 5 cases hc
  · obtain ⟨item, hitem, rfl⟩ := List.mem_map.mp hc
    exact h.part hitem
  · rcases mem_inside_object hc with ⟨_, props, name, -, he, hname, -⟩ | ⟨key, he, -, -, -⟩
    · exact (h.entry he).entry hname
    · exact h.entry he

theorem annotated_ok {m : Map} {reachable : Bool} {path : List String} {ps : List HeaderParam}
    (h : annotated debug m reachable path = .ok ps) : ps.length ≤ 1 := by
  unfold annotated at h
  split at h
  · cases h
    exact Nat.zero_le 1
  · split at h
    · cases h
    · simp only at h
      split at h
      · cases h
      · split at h
        · cases h
        · split at h
          · cases h
            exact le_rfl
          · cases h

theorem apart_ownMark (path : List String) (point : Place × Value) :
    ∀ ps, ownMark debug path point = .ok ps →
      (ps.map (·.path)).Nodup ∧ ∀ p ∈ ps, point.1 = some p.path := by
  intro ps hps
  have hlength : ps.length ≤ 1 := by
    obtain ⟨place, v⟩ := point
    rcases v with _ | _ | _ | _ | _ | _ | m
    iterate 6 cases hps; exact Nat.zero_le 1
    · exact annotated_ok hps
  have hfinds : Finds {point} (ownMark debug path point) := finds_ownMark path point
  rw [hps] at hfinds
  rcases hfinds with _ | ⟨-, hfound⟩
  constructor
  · rcases ps with _ | ⟨p, _ | ⟨q, ps⟩⟩
    · exact List.nodup_nil
    · exact List.nodup_singleton p.path
    · simp at hlength
  · intro p hp
    obtain ⟨m, sign, hmem, -, -⟩ := (hfound p).mp hp
    rw [Set.mem_singleton_iff] at hmem
    rw [← hmem]

/-- **Once**: no path is found twice. -/
theorem apart_scanAt (path : List String) {point : Place × Value} (hkeyed : point.2.Keyed) :
    Apart point (scanAt debug path point) := by
  induction hn : sizeOf point.2 using Nat.strongRecOn generalizing point path with
  | ind n ih =>
      intro ps hps
      rw [scanAt_eq] at hps
      obtain ⟨found, more, hfound, hmore, rfl⟩ := both_eq_ok hps
      obtain ⟨hnodup, hown⟩ := apart_ownMark path point found hfound
      obtain ⟨hnodup', hinside⟩ := nodup_gather (pairwise_inside hkeyed)
        (fun c hc => ih _ (hn ▸ sizeOf_inside hc) _ (keyed_inside hkeyed hc) rfl) hmore
      constructor
      · rw [List.map_append]
        refine hnodup.append hnodup' ?_
        intro q hq hq'
        obtain ⟨p, hp, rfl⟩ := List.mem_map.mp hq
        obtain ⟨p', hp', hsame⟩ := List.mem_map.mp hq'
        obtain ⟨c, hc, honward⟩ := hinside p' hp'
        obtain ⟨start, hstart, -, hne⟩ := onward_of_inside hc honward
        rw [hown p hp] at hstart
        cases hstart
        exact hne hsame.symm
      · intro p hp
        rcases List.mem_append.mp hp with hp | hp
        · exact ⟨p.path, hown p hp, List.prefix_refl _⟩
        · obtain ⟨c, hc, honward⟩ := hinside p hp
          obtain ⟨start, hstart, hbegins, -⟩ := onward_of_inside hc honward
          exact ⟨start, hstart, hbegins⟩

end

/-! ## Nodes among the points -/

theorem mem_inside_property {path : List String} {m props : Map} {name : String} {v : Value}
    (hm : ("properties", .object props) ∈ m) (hprops : (name, v) ∈ props) :
    (some (path ++ [name]), v) ∈ inside (some path, .object m) := by
  refine List.mem_flatMap.mpr ⟨_, hm, ?_⟩
  simp only [if_true]
  exact List.mem_map.mpr ⟨_, hprops, rfl⟩

theorem mem_inside_other {place : Place} {m : Map} {key : String} {child : Value}
    (hm : (key, child) ∈ m) (hmark : key ≠ mark) (hkey : place = none ∨ key ≠ "properties") :
    (none, child) ∈ inside (place, .object m) := by
  refine List.mem_flatMap.mpr ⟨_, hm, ?_⟩
  rcases place with _ | path
  · simp only [hmark, if_false, List.mem_singleton]
  · have hne : key ≠ "properties" := hkey.resolve_left (by simp)
    simp only [hne, hmark, if_false, List.mem_singleton]

/-- The schemas in a schema: a parameter's, or one under another keyword. -/
theorem mem_subschemas_object {place : Place} {m : Map} {c : Place × Value}
    (h : c ∈ subschemas (place, .object m)) :
    (∃ path props name, place = some path ∧ ("properties", Value.object props) ∈ m ∧
      (name, c.2) ∈ props ∧ c.1 = some (path ++ [name])) ∨
    (∃ key child, (key, child) ∈ m ∧ (place = none ∨ key ≠ "properties") ∧
      c.2 ∈ keywordSchemas key child ∧ c.1 = none) := by
  obtain ⟨⟨key, child⟩, he, hc⟩ := List.mem_flatMap.mp h
  rcases place with _ | path
  · obtain ⟨schema, hschema, rfl⟩ := List.mem_map.mp hc
    exact .inr ⟨key, child, he, .inl rfl, hschema, rfl⟩
  · by_cases hproperties : key = "properties"
    · subst hproperties
      simp only [if_true] at hc
      obtain ⟨props, name, rfl, hname, hplace⟩ := mem_properties hc
      exact .inl ⟨path, props, name, rfl, he, hname, hplace⟩
    · simp only [hproperties, if_false] at hc
      obtain ⟨schema, hschema, rfl⟩ := List.mem_map.mp hc
      exact .inr ⟨key, child, he, .inr hproperties, hschema, rfl⟩

theorem ne_mark_of_keyword {key : String} {child schema : Value}
    (h : schema ∈ keywordSchemas key child) : key ≠ mark := by
  rintro rfl
  rcases child with _ | _ | _ | _ | _ | schemas | m
  iterate 5 cases h
  · rw [keywordSchemas, if_neg (by decide)] at h
    cases h
  · rw [keywordSchemas, if_neg (by decide), if_neg (by decide)] at h
    cases h

/-- A schema under a keyword is met in the document, unless the value of the keyword looks
marked itself. -/
theorem meets_keywordSchemas {key : String} {child schema : Value}
    (h : schema ∈ keywordSchemas key child)
    (hclear : ∀ m, child = .object m → Map.get m mark = none) :
    Meets inside (none, child) (none, schema) := by
  rcases child with _ | _ | _ | _ | _ | schemas | m
  iterate 5 cases h
  · rw [keywordSchemas] at h
    split at h
    · exact .head (List.mem_map.mpr ⟨schema, h, rfl⟩) (.refl _)
    · cases h
  · rw [keywordSchemas] at h
    split at h
    · obtain ⟨⟨name, v⟩, hv, rfl⟩ := List.mem_map.mp h
      have hname : name ≠ mark := by
        rintro rfl
        have hkey : mark ∈ m.map Prod.fst := List.mem_map.mpr ⟨_, hv, rfl⟩
        rw [← Entries.get_isSome_iff] at hkey
        have hnone : Entries.get m mark = none := hclear m rfl
        rw [hnone] at hkey
        cases hkey
      exact .head (mem_inside_other hv hname (.inl rfl)) (.refl _)
    · split at h
      · rw [List.mem_singleton.mp h]
        exact .refl _
      · cases h

/-- No object beside the chains bears the key. -/
def Clear (schema : Value) : Prop :=
  ∀ m, Meets inside (some [], schema) (none, .object m) → Map.get m mark = none

/-- With no such object about, the walk of the document meets every node. -/
theorem meets_of_node {schema : Value} (hclear : Clear schema) {a : Place × Value}
    (h : Meets subschemas (some [], schema) a) : Meets inside (some [], schema) a := by
  refine h.induction (.refl _) ?_
  rintro ⟨place, v⟩ - hb c hc
  rcases v with _ | _ | _ | _ | _ | _ | m
  iterate 6 cases hc
  · obtain ⟨place', w⟩ := c
    rcases mem_subschemas_object hc with
      ⟨path, props, name, rfl, he, hname, rfl⟩ | ⟨key, child, he, hkey, hschema, rfl⟩
    · exact hb.trans (.head (mem_inside_property he hname) (.refl _))
    · have hchild : Meets inside (some [], schema) (none, child) :=
        hb.trans (.head (mem_inside_other he (ne_mark_of_keyword hschema) hkey) (.refl _))
      refine hchild.trans (meets_keywordSchemas hschema ?_)
      rintro m' rfl
      exact hclear m' hchild

/-- What stands at the end of a chain is a node. -/
theorem node_of_meets {schema : Value} {a : Place × Value}
    (h : Meets inside (some [], schema) a) {path : List String} (hpath : a.1 = some path) :
    Meets subschemas (some [], schema) a := by
  refine h.induction (P := fun a => ∀ path, a.1 = some path → Meets subschemas (some [], schema) a)
    (fun _ _ => .refl _) ?_ path hpath
  rintro ⟨place, v⟩ - hb c hc path hpath
  rcases v with _ | _ | _ | _ | _ | items | m
  iterate 5 cases hc
  · obtain ⟨item, -, rfl⟩ := List.mem_map.mp hc
    cases hpath
  · obtain ⟨place', w⟩ := c
    rcases mem_inside_object hc with
      ⟨start, props, name, rfl, he, hname, rfl⟩ | ⟨_, -, -, -, hnone⟩
    · refine (hb start rfl).trans (.head ?_ (.refl _))
      refine List.mem_flatMap.mpr ⟨_, he, ?_⟩
      simp only [if_true]
      exact List.mem_map.mpr ⟨_, hname, rfl⟩
    · cases hnone.symm.trans hpath

/-! ## The collection -/

section

variable {debug : String → String}

theorem fails_of_scan {schema : Value} {e : String}
    (h : scan debug schema true [] = .error e) :
    headerParamsFromSchema debug schema = .error e := by
  unfold headerParamsFromSchema
  rw [h]
  rfl

/-- After a scan, the collection fails exactly on a name that stands twice. -/
theorem collected_of_scan {schema : Value} {found : List HeaderParam}
    (h : scan debug schema true [] = .ok found) :
    ((found.map fun p => McpHeaders.asciiLower p.header).Nodup ∧
      headerParamsFromSchema debug schema = .ok found) ∨
    (¬ (found.map fun p => McpHeaders.asciiLower p.header).Nodup ∧
      ∃ e, headerParamsFromSchema debug schema = .error e) := by
  rcases hrepeated : repeatedName found [] with _ | header
  · refine .inl ⟨(nodup_of_repeatedName hrepeated).1, ?_⟩
    unfold headerParamsFromSchema
    rw [h]
    simp only [bind, Except.bind, hrepeated]
  · refine .inr ⟨?_, ?_⟩
    · intro hnodup
      rw [repeatedName_of_nodup hnodup fun _ _ => List.not_mem_nil] at hrepeated
      cases hrepeated
    · unfold headerParamsFromSchema
      rw [h]
      simp only [bind, Except.bind, hrepeated]
      exact ⟨_, rfl⟩

/-- Distinct paths, and a name that stands twice: it stands at two paths. -/
theorem exists_duplicate {found : List HeaderParam} (hpaths : (found.map (·.path)).Nodup)
    (h : ¬ (found.map fun p => McpHeaders.asciiLower p.header).Nodup) :
    ∃ p ∈ found, ∃ q ∈ found, p.path ≠ q.path ∧
      McpHeaders.asciiLower p.header = McpHeaders.asciiLower q.header := by
  by_contra hnone
  apply h
  refine List.pairwise_map.mpr (List.Pairwise.imp_of_mem ?_ (List.pairwise_map.mp hpaths))
  intro p q hp hq hne hsame
  exact hnone ⟨p, hp, q, hq, hne, hsame⟩

/-- Marks misused or doubled make the collection fail, if no other object looks marked. -/
theorem exact_of_clear {schema : Value} (hkeyed : schema.Keyed) (hclear : Clear schema) :
    Exact debug schema := by
  have hfinds : Finds {a | Meets inside (some [], schema) a} (scan debug schema true []) :=
    finds_scanAt [] (some [], schema)
  rcases hscan : scan debug schema true [] with e | found
  · -- the scan refuses a node: it stands at the end of a chain, for the rest is clear
    rw [hscan] at hfinds
    rcases hfinds with @⟨_, place, m, sign, hmem, hget, hbad⟩ | _
    have hfails := fails_of_scan hscan
    refine ⟨⟨fun _ => .inl ⟨place, m, sign, ?_, hget, hbad⟩, fun _ => ⟨e, hfails⟩⟩, ?_⟩
    · rcases place with _ | path
      · rw [hclear m hmem] at hget
        cases hget
      · exact node_of_meets hmem rfl
    · intro ps hps
      cases hfails.symm.trans hps
  · rw [hscan] at hfinds
    rcases hfinds with _ | ⟨hfine, hfound⟩
    have hmarked : ∀ p, p ∈ found ↔ Marked schema p := by
      intro p
      rw [hfound]
      constructor
      · rintro ⟨m, sign, hmem, h⟩
        exact ⟨m, sign, node_of_meets hmem rfl, h⟩
      · rintro ⟨m, sign, hnode, h⟩
        exact ⟨m, sign, meets_of_node hclear hnode, h⟩
    have hapart : Apart (some [], schema) (scan debug schema true []) := apart_scanAt [] hkeyed
    have hpaths : (found.map (·.path)).Nodup := (hapart found hscan).1
    rcases collected_of_scan hscan with ⟨hnodup, hok⟩ | ⟨hrepeated, e, hfails⟩
    · refine ⟨⟨?_, ?_⟩, ?_⟩
      · rintro ⟨e, hfails⟩
        cases hok.symm.trans hfails
      · rintro (⟨place, m, sign, hnode, hget, hbad⟩ | ⟨p, q, hp, hq, hne, hsame⟩)
        · exact absurd hbad (hfine place m sign (meets_of_node hclear hnode) hget)
        · have heq : p = q :=
            List.inj_on_of_nodup_map hnodup ((hmarked p).mpr hp) ((hmarked q).mpr hq) hsame
          exact absurd (congrArg HeaderParam.path heq) hne
      · intro ps hps
        cases hok.symm.trans hps
        exact ⟨hpaths, hmarked⟩
    · obtain ⟨p, hp, q, hq, hne, hsame⟩ := exists_duplicate hpaths hrepeated
      refine ⟨⟨fun _ => ?_, fun _ => ⟨e, hfails⟩⟩, ?_⟩
      · exact .inr ⟨p, q, (hmarked p).mp hp, (hmarked q).mp hq, hne, hsame⟩
      · intro ps hps
        cases hfails.symm.trans hps

/-- Any object that looks marked, beside the chains, makes the collection fail. -/
theorem fails_of_not_clear {schema : Value} (h : ¬ Clear schema) :
    ∃ e, headerParamsFromSchema debug schema = .error e := by
  have hfinds : Finds {a | Meets inside (some [], schema) a} (scan debug schema true []) :=
    finds_scanAt [] (some [], schema)
  rcases hscan : scan debug schema true [] with e | found
  · exact ⟨e, fails_of_scan hscan⟩
  · exfalso
    rw [hscan] at hfinds
    rcases hfinds with _ | ⟨hfine, -⟩
    apply h
    intro m hmem
    rcases hget : Map.get m mark with _ | sign
    · rfl
    · exact absurd .unreachable (hfine none m sign hmem hget)

/-- **Exact collection**: it is exact on a schema with misused marks, which it refuses for
whatever reason, and on every other schema in which nothing but a node bears the key. -/
theorem exact_iff (debug : String → String) {schema : Value} (hkeyed : schema.Keyed) :
    Exact debug schema ↔ Bad schema ∨ ¬ Lookalike schema := by
  by_cases hclear : Clear schema
  · refine ⟨fun _ => .inr ?_, fun _ => exact_of_clear hkeyed hclear⟩
    rintro ⟨m, hmem, hmarked, -⟩
    rw [hclear m hmem] at hmarked
    cases hmarked
  · obtain ⟨e, hfails⟩ : ∃ e, headerParamsFromSchema debug schema = .error e :=
      fails_of_not_clear hclear
    constructor
    · intro hexact
      exact .inl (hexact.fails_iff.mp ⟨e, hfails⟩)
    · rintro (hbad | hnone)
      · refine ⟨⟨fun _ => hbad, fun _ => ⟨e, hfails⟩⟩, ?_⟩
        intro ps hps
        cases hfails.symm.trans hps
      · -- what looks marked is a node then, and its mark is misused
        obtain ⟨m, hm⟩ := not_forall.mp hclear
        obtain ⟨hmem, hmark⟩ := Classical.not_imp.mp hm
        obtain ⟨sign, hget⟩ := Option.ne_none_iff_exists'.mp hmark
        have hnode : Node schema none m := by
          by_contra hother
          exact hnone ⟨m, hmem, by rw [hget]; rfl, hother⟩
        refine ⟨⟨fun _ => .inl ⟨none, m, sign, hnode, hget, .unreachable⟩,
          fun _ => ⟨e, hfails⟩⟩, ?_⟩
        intro ps hps
        cases hfails.symm.trans hps

end

/-! ## A marked parameter, and a default that looks marked -/

def regionParam : Value :=
  .object [("type", .string "string"), ("x-mcp-header", .string "Region")]

def regionSchema : Value := .object [("properties", .object [("region", regionParam)])]

/-- A parameter whose default happens to have the key. -/
def headersParam : Value :=
  .object [("type", .string "object"), ("default", .object [("x-mcp-header", .string "X-Trace")])]

def headersSchema : Value := .object [("properties", .object [("headers", headersParam)])]

theorem keyed_regionSchema : regionSchema.Keyed :=
  Value.keyed_of_closed [regionSchema, .object [("region", regionParam)], regionParam,
    .string "string", .string "Region"] (by decide) (by decide) (by decide)

/-- The region is marked, and collected. -/
theorem region_exact : Exact id regionSchema := by
  apply (exact_iff id keyed_regionSchema).mpr
  refine .inr ?_
  rintro ⟨m, hmem, hmarked, -⟩
  have hin : ((none, .object m) : Place × Value) ∈ [((some [], regionSchema) : Place × Value),
      (some ["region"], regionParam), (none, .string "string")] :=
    mem_of_closed (by decide) (by decide) hmem
  have hall : ∀ a ∈ [((some [], regionSchema) : Place × Value), (some ["region"], regionParam),
      (none, .string "string")], a.1 = none → a.2.get mark = none := by decide
  have hnone : Map.get m mark = none := hall _ hin rfl
  rw [hnone] at hmarked
  cases hmarked

/-- The default is taken for a mark: the tool is refused, and nothing in its schema is
marked. -/
theorem default_refused : ¬ Exact id headersSchema := by
  intro hexact
  have hunmarked : ∀ place m, Node headersSchema place m → Map.get m mark = none := by
    intro place m hnode
    have hin : ((place, .object m) : Place × Value) ∈
        [((some [], headersSchema) : Place × Value), (some ["headers"], headersParam)] :=
      mem_of_closed (by decide) (by decide) hnode
    have hall : ∀ a ∈ [((some [], headersSchema) : Place × Value),
        (some ["headers"], headersParam)], a.2.get mark = none := by decide
    exact hall _ hin
  rcases hexact.fails_iff.mp ⟨_, rfl⟩ with ⟨place, m, sign, hnode, hget, -⟩ | ⟨p, q, hp, -⟩
  · rw [hunmarked place m hnode] at hget
    cases hget
  · obtain ⟨m, sign, hnode, hget, -⟩ := hp
    rw [hunmarked _ m hnode] at hget
    cases hget

end HeaderParams

end TurboMcp.Client
