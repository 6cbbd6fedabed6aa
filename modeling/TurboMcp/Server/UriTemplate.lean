import Mathlib.Data.List.Forall2
import TurboMcp.Lib.Captures
import TurboMcp.Lib.Text

/-!
# URI templates

The URI of a templated resource is matched by compiling the template to an anchored
regular expression, one group for each variable; the handler's arguments are bound
by the names the macro reads in the same template.  The regex crate is a parameter.
What it finds is an expansion of the template, and it finds one whenever there is
one, but for a line feed: `.` stands for every character save that one.
-/

namespace TurboMcp.Server

open TurboMcp.Lib

/-- The regex crate: a pattern may be refused, for its size say; the groups of a match
start with the whole text. -/
structure RegexCrate where
  Regex : Type
  escape : String → String
  new : String → Option Regex
  captures : Regex → String → Option (List String)

/-! ## Matching -/

/-- What stands before the first `c`, and what stands after it. -/
def splitAtFirst (c : Char) (rest : List Char) : Option (List Char × List Char) :=
  if c ∈ rest then some (rest.takeWhile (· ≠ c), (rest.dropWhile (· ≠ c)).tail) else none

def isVarChar (c : Char) : Bool := c.isAlphanum || c == '_'

theorem splitAtFirst_length {c : Char} {rest before after : List Char}
    (h : splitAtFirst c rest = some (before, after)) : after.length < rest.length := by
  unfold splitAtFirst at h
  split at h
  · have hmem : c ∈ rest := ‹_›
    have hsuffix := (List.dropWhile_suffix (· ≠ c) (l := rest)).length_le
    have hpos := List.length_pos_of_mem hmem
    cases h
    rw [List.length_tail]
    omega
  · cases h

/-- The loop of `match_uri_template`. -/
def compile (crate : RegexCrate) (pattern : String) (names : List String) (rest : List Char) :
    Option (String × List String) :=
  match _hopen : splitAtFirst '{' rest with
  | none => some (pattern ++ crate.escape (String.ofList rest) ++ "$", names)
  | some (literal, fromOpen) =>
      match _hclose : splitAtFirst '}' fromOpen with
      | none => none
      | some (inside, afterClose) =>
          let greedy := inside.head? == some '+'
          let var := if greedy then inside.tail else inside
          if var.isEmpty || !var.all isVarChar then none
          else
            compile crate
              (pattern ++ crate.escape (String.ofList literal) ++
                (if greedy then "(.+)" else "([^/]+)"))
              (names ++ [String.ofList var]) afterClose
termination_by rest.length
decreasing_by
  have := splitAtFirst_length _hopen
  have := splitAtFirst_length _hclose
  omega

/-- The variables captured, in template order.  There is a group for each name, so that
`caps[i + 1]` is always there. -/
def matchUriTemplate (crate : RegexCrate) (template uri : String) :
    Option (List (String × String)) := do
  let (pattern, names) ← compile crate "^" [] template.toList
  let re ← crate.new pattern
  let caps ← crate.captures re uri
  return names.zipIdx.map fun (name, i) => (name, caps.getD (i + 1) "")

/-- The loop of `template_vars`, in the macro. -/
def templateVarsFrom (vars : List String) (rest : List Char) : List String :=
  match _hopen : splitAtFirst '{' rest with
  | none => vars
  | some (_, fromOpen) =>
      match _hclose : splitAtFirst '}' fromOpen with
      | none => vars
      | some (inside, afterClose) =>
          let var := if inside.head? == some '+' then inside.tail else inside
          templateVarsFrom (if var.isEmpty then vars else vars ++ [String.ofList var]) afterClose
termination_by rest.length
decreasing_by
  have := splitAtFirst_length _hopen
  have := splitAtFirst_length _hclose
  omega

def templateVars (uri : String) : List String := templateVarsFrom [] uri.toList

/-! ## Templates -/

/-- A literal span of a template. -/
structure Literal where
  text : List Char
  noOpen : '{' ∉ text

/-- A variable position, `{name}` or `{+name}`. -/
structure Hole where
  reserved : Bool
  name : List Char
  ne_nil : name ≠ []
  varChars : ∀ c ∈ name, isVarChar c = true

namespace Hole

def inside (h : Hole) : List Char := (if h.reserved then ['+'] else []) ++ h.name

/-- The values a position takes: one segment, or anything for a reserved one. -/
def Takes (h : Hole) (value : List Char) : Prop :=
  value ≠ [] ∧ (h.reserved = false → '/' ∉ value)

instance (h : Hole) : DecidablePred h.Takes := fun value =>
  inferInstanceAs (Decidable (value ≠ [] ∧ (h.reserved = false → '/' ∉ value)))

end Hole

/-- A well-formed template: spans and positions in turn. -/
structure UriTemplate where
  parts : List (Literal × Hole)
  last : Literal

namespace UriTemplate

def chars (t : UriTemplate) : List Char :=
  t.parts.flatMap (fun p => p.1.text ++ '{' :: (p.2.inside ++ ['}'])) ++ t.last.text

def text (t : UriTemplate) : String := String.ofList t.chars

def holes (t : UriTemplate) : List Hole := t.parts.map Prod.snd

def names (t : UriTemplate) : List String := t.holes.map fun h => String.ofList h.name

/-- The URI with the values in the place of the variables. -/
def expand (t : UriTemplate) (values : List (List Char)) : List Char :=
  (List.zipWith (fun p v => p.1.text ++ v) t.parts values).flatten ++ t.last.text

/-- The values may stand in the positions, and the URI is what comes of it. -/
structure Assigns (t : UriTemplate) (values : List (List Char)) (uri : List Char) : Prop where
  takes : List.Forall₂ Hole.Takes t.holes values
  expands : t.expand values = uri

/-- No reserved position has a line feed in its value. -/
def SingleLine (t : UriTemplate) (values : List (List Char)) : Prop :=
  List.Forall₂ (fun h v => h.reserved = true → '\n' ∉ v) t.holes values

end UriTemplate

/-! ## What the patterns mean -/

/-- The part of the syntax that templates use. -/
inductive Span where
  | literal (text : List Char)
  | segment
  | across

namespace Span

def render (crate : RegexCrate) : Span → String
  | literal text => crate.escape (String.ofList text)
  | segment => "([^/]+)"
  | across => "(.+)"

/-- `[^/]` is every character but a slash, `.` every one but a line feed. -/
def piece : Span → Piece Char
  | literal text => .literal text
  | segment => .capture (· != '/')
  | across => .capture (· != '\n')

end Span

def renderAll (crate : RegexCrate) : List Span → String
  | [] => ""
  | span :: spans => span.render crate ++ renderAll crate spans

/-- An anchored pattern. -/
def anchored (crate : RegexCrate) (spans : List Span) : String :=
  "^" ++ renderAll crate spans ++ "$"

/-- The semantics of the crate: an escaped text stands for itself, `+` takes as much as it
can and gives back when the rest does not match, the anchors are the ends of the text. -/
def RegexCrate.Faithful (crate : RegexCrate) : Prop :=
  ∀ spans re, crate.new (anchored crate spans) = some re → ∀ uri,
    crate.captures re uri =
      (Lib.captures (spans.map Span.piece) uri.toList).map fun values =>
        uri :: values.map String.ofList

/-! ## The two readers of a template -/

theorem splitAtFirst_append {c : Char} {before : List Char} (h : c ∉ before) (after : List Char) :
    splitAtFirst c (before ++ c :: after) = some (before, after) := by
  have hall : ∀ a ∈ before, (decide (a ≠ c)) = true := by
    intro a ha
    exact decide_eq_true fun hac => h (hac ▸ ha)
  unfold splitAtFirst
  rw [if_pos (by simp), List.takeWhile_append_of_pos hall, List.dropWhile_append_of_pos hall,
    List.takeWhile_cons_of_neg (by simp), List.dropWhile_cons_of_neg (by simp), List.append_nil,
    List.tail_cons]

theorem splitAtFirst_eq_none {c : Char} {rest : List Char} (h : c ∉ rest) :
    splitAtFirst c rest = none := if_neg h

namespace Hole

theorem close_not_mem (h : Hole) : '}' ∉ h.inside := by
  intro hmem
  rcases List.mem_append.mp hmem with hplus | hname
  · split at hplus
    · exact absurd (List.mem_singleton.mp hplus) (by decide)
    · cases hplus
  · exact absurd (h.varChars _ hname) (by decide)

theorem head?_inside (h : Hole) : (h.inside.head? == some '+') = h.reserved := by
  unfold inside
  rcases h.reserved
  · obtain ⟨c, cs, hname⟩ := List.exists_cons_of_ne_nil h.ne_nil
    have hc : c ≠ '+' := by
      rintro rfl
      exact absurd (h.varChars _ (hname ▸ List.mem_cons_self)) (by decide)
    simp [hname, hc]
  · rfl

/-- What both readers take for the name. -/
theorem name_of_inside (h : Hole) :
    (if h.reserved = true then h.inside.tail else h.inside) = h.name := by
  unfold inside
  rcases h.reserved <;> rfl

theorem name_isEmpty (h : Hole) : h.name.isEmpty = false := by
  rw [List.isEmpty_eq_false_iff]
  exact h.ne_nil

def span (h : Hole) : Span := if h.reserved then .across else .segment

theorem render_span (h : Hole) (crate : RegexCrate) :
    h.span.render crate = if h.reserved then "(.+)" else "([^/]+)" := by
  unfold span
  rcases h.reserved <;> rfl

end Hole

namespace UriTemplate

/-- The pattern a template stands for. -/
def spans (t : UriTemplate) : List Span :=
  t.parts.flatMap (fun p => [.literal p.1.text, p.2.span]) ++ [.literal t.last.text]

end UriTemplate

theorem compile_of_none (crate : RegexCrate) (pattern : String) (names : List String)
    {rest : List Char} (h : '{' ∉ rest) :
    compile crate pattern names rest =
      some (pattern ++ crate.escape (String.ofList rest) ++ "$", names) := by
  rw [compile]
  split
  · rfl
  · rename_i hsome
    rw [splitAtFirst_eq_none h] at hsome
    cases hsome

/-- What the loop makes of a variable position and the span before it. -/
theorem compile_part (crate : RegexCrate) (pattern : String) (names : List String) (l : Literal)
    (h : Hole) (rest : List Char) :
    compile crate pattern names (l.text ++ '{' :: (h.inside ++ '}' :: rest)) =
      compile crate (pattern ++ crate.escape (String.ofList l.text) ++ h.span.render crate)
        (names ++ [String.ofList h.name]) rest := by
  have hall : h.name.all isVarChar = true := List.all_eq_true.mpr h.varChars
  rw [compile]
  split
  · rename_i hnone
    rw [splitAtFirst_append l.noOpen] at hnone
    cases hnone
  · rename_i hsome
    rw [splitAtFirst_append l.noOpen] at hsome
    cases hsome
    split
    · rename_i hnone
      rw [splitAtFirst_append h.close_not_mem] at hnone
      cases hnone
    · rename_i hsome
      rw [splitAtFirst_append h.close_not_mem] at hsome
      cases hsome
      simp only [h.name_of_inside, h.name_isEmpty, hall, h.head?_inside, h.render_span,
        Bool.not_true, Bool.or_self, Bool.false_eq_true, if_false]

theorem templateVarsFrom_of_none (vars : List String) {rest : List Char} (h : '{' ∉ rest) :
    templateVarsFrom vars rest = vars := by
  rw [templateVarsFrom]
  split
  · rfl
  · rename_i hsome
    rw [splitAtFirst_eq_none h] at hsome
    cases hsome

theorem templateVarsFrom_part (vars : List String) (l : Literal) (h : Hole) (rest : List Char) :
    templateVarsFrom vars (l.text ++ '{' :: (h.inside ++ '}' :: rest)) =
      templateVarsFrom (vars ++ [String.ofList h.name]) rest := by
  rw [templateVarsFrom]
  split
  · rename_i hnone
    rw [splitAtFirst_append l.noOpen] at hnone
    cases hnone
  · rename_i hsome
    rw [splitAtFirst_append l.noOpen] at hsome
    cases hsome
    split
    · rename_i hnone
      rw [splitAtFirst_append h.close_not_mem] at hnone
      cases hnone
    · rename_i hsome
      rw [splitAtFirst_append h.close_not_mem] at hsome
      cases hsome
      simp only [h.head?_inside, h.name_of_inside, h.name_isEmpty, Bool.false_eq_true, if_false]

namespace UriTemplate

theorem chars_cons (p : Literal × Hole) (parts : List (Literal × Hole)) (last : Literal) :
    (UriTemplate.mk (p :: parts) last).chars =
      p.1.text ++ '{' :: (p.2.inside ++ '}' :: (UriTemplate.mk parts last).chars) := by
  simp [chars]

theorem spans_cons (p : Literal × Hole) (parts : List (Literal × Hole)) (last : Literal) :
    (UriTemplate.mk (p :: parts) last).spans =
      .literal p.1.text :: p.2.span :: (UriTemplate.mk parts last).spans := rfl

/-- The loop reads a well-formed template to its end. -/
theorem compile_chars (crate : RegexCrate) (t : UriTemplate) (pattern : String)
    (names : List String) :
    compile crate pattern names t.chars =
      some (pattern ++ renderAll crate t.spans ++ "$", names ++ t.names) := by
  obtain ⟨parts, last⟩ := t
  induction parts generalizing pattern names with
  | nil =>
      show compile crate pattern names last.text = _
      rw [compile_of_none crate pattern names last.noOpen]
      simp [spans, renderAll, Span.render, UriTemplate.names, holes]
  | cons p parts ih =>
      rw [chars_cons, compile_part, ih, spans_cons]
      simp [renderAll, Span.render, UriTemplate.names, holes, String.append_assoc]

theorem templateVarsFrom_chars (t : UriTemplate) (vars : List String) :
    templateVarsFrom vars t.chars = vars ++ t.names := by
  obtain ⟨parts, last⟩ := t
  induction parts generalizing vars with
  | nil =>
      show templateVarsFrom vars last.text = _
      rw [templateVarsFrom_of_none vars last.noOpen]
      simp [UriTemplate.names, holes]
  | cons p parts ih =>
      rw [chars_cons, templateVarsFrom_part, ih]
      simp [UriTemplate.names, holes]

/-- **The macro's names** are those of the positions, in template order. -/
theorem templateVars_text (t : UriTemplate) : templateVars t.text = t.names := by
  unfold templateVars text
  rw [String.toList_ofList, templateVarsFrom_chars, List.nil_append]

end UriTemplate

/-! ## Expansions -/

namespace UriTemplate

theorem expand_cons (p : Literal × Hole) (parts : List (Literal × Hole)) (last : Literal)
    (v : List Char) (values : List (List Char)) :
    (UriTemplate.mk (p :: parts) last).expand (v :: values) =
      p.1.text ++ (v ++ (UriTemplate.mk parts last).expand values) := by
  simp [expand]

theorem Assigns.length_names {t : UriTemplate} {values : List (List Char)} {uri : List Char}
    (h : t.Assigns values uri) : t.names.length = values.length := by
  rw [names, List.length_map]
  exact h.takes.length_eq

theorem takes_span_iff {h : Hole} {pieces : List (Piece Char)} {values : List (List Char)}
    {text : List Char} :
    Spells (h.span.piece :: pieces) values text ↔
      ∃ v vs rest, values = v :: vs ∧ text = v ++ rest ∧
        (h.Takes v ∧ (h.reserved = true → '\n' ∉ v)) ∧ Spells pieces vs rest := by
  have hclass : ∀ (c : Char) (v : List Char), (∀ a ∈ v, (a != c) = true) ↔ c ∉ v := by
    intro c v
    constructor
    · intro hall hc
      exact absurd (hall c hc) (by simp)
    · intro hc a ha
      exact bne_iff_ne.mpr fun hac => hc (hac ▸ ha)
  unfold Hole.span Hole.Takes
  rcases h.reserved
  · simp only [Bool.false_eq_true, if_false, Span.piece, spells_capture_iff, hclass, forall_const,
      false_implies, and_true, and_assoc]
  · simp only [if_true, Span.piece, spells_capture_iff, hclass, forall_const, Bool.true_eq_false,
      false_implies, and_true, and_assoc]

/-- **Readings of the pattern** are the expansions that keep reserved values to a line. -/
theorem spells_spans_iff (t : UriTemplate) {values : List (List Char)} {uri : List Char} :
    Spells (t.spans.map Span.piece) values uri ↔ t.Assigns values uri ∧ t.SingleLine values := by
  obtain ⟨parts, last⟩ := t
  induction parts generalizing values uri with
  | nil =>
      show Spells [.literal last.text] values uri ↔ _
      simp only [spells_literal_iff, spells_nil_iff]
      constructor
      · rintro ⟨rest, rfl, rfl, rfl⟩
        exact ⟨⟨.nil, by simp [expand]⟩, .nil⟩
      · rintro ⟨⟨⟨⟩, rfl⟩, -⟩
        exact ⟨[], by simp [expand], rfl, rfl⟩
  | cons p parts ih =>
      rw [spans_cons, List.map_cons, List.map_cons]
      show Spells (.literal p.1.text :: _) values uri ↔ _
      simp only [spells_literal_iff, takes_span_iff, ih]
      constructor
      · rintro ⟨_, rfl, v, vs, rest, rfl, rfl, ⟨htakes, hline⟩, ⟨htail, hexpands⟩, hlines⟩
        refine ⟨⟨.cons htakes htail, ?_⟩, .cons hline hlines⟩
        rw [expand_cons, hexpands]
      · rintro ⟨⟨htakes, rfl⟩, hlines⟩
        rcases htakes with _ | @⟨_, v, _, vs, hv, hvs⟩
        rcases hlines with _ | ⟨hline, hlines⟩
        rw [expand_cons]
        exact ⟨_, rfl, v, vs, _, rfl, rfl, ⟨hv, hline⟩, ⟨hvs, rfl⟩, hlines⟩

/-- The crate accepts the template's pattern: its size, above all, is within the limit. -/
def Accepted (crate : RegexCrate) (t : UriTemplate) : Prop :=
  (crate.new (anchored crate t.spans)).isSome

instance (crate : RegexCrate) : DecidablePred (Accepted crate) := fun t =>
  inferInstanceAs (Decidable ((crate.new (anchored crate t.spans)).isSome = true))

theorem matchUriTemplate_of_refused {crate : RegexCrate} {t : UriTemplate}
    (h : ¬ t.Accepted crate) (uri : String) : matchUriTemplate crate t.text uri = none := by
  have hnone : crate.new (anchored crate t.spans) = none := Option.not_isSome_iff_eq_none.mp h
  unfold matchUriTemplate text
  rw [String.toList_ofList, compile_chars]
  show (crate.new (anchored crate t.spans)).bind _ = none
  rw [hnone]
  rfl

/-- Each name with the text of its group. -/
theorem bindings_of_groups (uri : String) {names : List String} {values : List (List Char)}
    (h : names.length = values.length) :
    (names.zipIdx.map fun b => (b.1, (uri :: values.map String.ofList).getD (b.2 + 1) "")) =
      names.zip (values.map String.ofList) := by
  apply List.ext_getElem
  · simp [h]
  · intro i hi hi'
    have hvalue : i < values.length := by
      rw [List.length_zip, List.length_map] at hi'
      omega
    simp [hvalue]

/-- **The match**: the values the pattern takes, under the names of the template. -/
theorem matchUriTemplate_of_accepted {crate : RegexCrate} (hcrate : crate.Faithful)
    {t : UriTemplate} (h : t.Accepted crate) (uri : String) :
    matchUriTemplate crate t.text uri =
      (Lib.captures (t.spans.map Span.piece) uri.toList).map fun values =>
        t.names.zip (values.map String.ofList) := by
  obtain ⟨re, hre⟩ := Option.isSome_iff_exists.mp h
  unfold matchUriTemplate text
  rw [String.toList_ofList, compile_chars]
  show (crate.new (anchored crate t.spans)).bind _ = _
  rw [hre]
  show (crate.captures re uri).bind _ = _
  rw [hcrate t.spans re hre]
  rcases hvalues : Lib.captures (t.spans.map Span.piece) uri.toList with _ | values
  · rfl
  · have hassigns := ((spells_spans_iff t).mp (spells_of_captures hvalues)).1
    exact congrArg some (bindings_of_groups uri hassigns.length_names)

theorem isSome_matchUriTemplate_iff {crate : RegexCrate} (hcrate : crate.Faithful)
    {t : UriTemplate} {uri : String} :
    (matchUriTemplate crate t.text uri).isSome ↔
      t.Accepted crate ∧ ∃ values, t.Assigns values uri.toList ∧ t.SingleLine values := by
  by_cases h : t.Accepted crate
  · rw [matchUriTemplate_of_accepted hcrate h, Option.isSome_map, isSome_captures_iff]
    simp only [spells_spans_iff, h, true_and]
  · rw [matchUriTemplate_of_refused h]
    exact ⟨fun hsome => absurd hsome (by decide), fun hmatch => absurd hmatch.1 h⟩

/-- **What is bound is an expansion**, under the names the macro reads. -/
theorem assigns_of_match {crate : RegexCrate} (hcrate : crate.Faithful) {t : UriTemplate}
    {uri : String} {bindings : List (String × String)}
    (h : matchUriTemplate crate t.text uri = some bindings) :
    t.Assigns (bindings.map fun b => b.2.toList) uri.toList ∧
      bindings.map Prod.fst = templateVars t.text := by
  have haccepted : t.Accepted crate := by
    have hsome : (matchUriTemplate crate t.text uri).isSome := by rw [h]; rfl
    exact ((isSome_matchUriTemplate_iff hcrate).mp hsome).1
  rw [matchUriTemplate_of_accepted hcrate haccepted] at h
  obtain ⟨values, hvalues, rfl⟩ := Option.map_eq_some_iff.mp h
  have hassigns := ((spells_spans_iff t).mp (spells_of_captures hvalues)).1
  have hlength : t.names.length = (values.map String.ofList).length := by
    rw [hassigns.length_names, List.length_map]
  constructor
  · have htexts : (t.names.zip (values.map String.ofList)).map (fun b => b.2.toList) = values := by
      show (t.names.zip (values.map String.ofList)).map (String.toList ∘ Prod.snd) = values
      rw [← List.map_map, List.map_snd_zip hlength.ge, List.map_map]
      simp [Function.comp_def]
    rw [htexts]
    exact hassigns
  · rw [templateVars_text, List.map_fst_zip hlength.le]

/-- Matching inverts expansion: there is a match exactly when the URI is an expansion of
the template, and what is bound is one, under the macro's names. -/
structure Inverts (crate : RegexCrate) (t : UriTemplate) (uri : String) : Prop where
  matched_iff :
    (matchUriTemplate crate t.text uri).isSome ↔ ∃ values, t.Assigns values uri.toList
  bound : ∀ bindings, matchUriTemplate crate t.text uri = some bindings →
    t.Assigns (bindings.map fun b => b.2.toList) uri.toList ∧
      bindings.map Prod.fst = templateVars t.text

/-- **Inversion**: it holds unless the URI is an expansion that the crate cannot see, the
pattern being refused or every expansion having a line feed in a reserved value. -/
theorem inverts_iff (crate : RegexCrate) (hcrate : crate.Faithful) (t : UriTemplate)
    (uri : String) :
    Inverts crate t uri ↔
      ((∃ values, t.Assigns values uri.toList) →
        t.Accepted crate ∧ ∃ values, t.Assigns values uri.toList ∧ t.SingleLine values) := by
  constructor
  · rintro ⟨hmatched, -⟩ hassigns
    exact (isSome_matchUriTemplate_iff hcrate).mp (hmatched.mpr hassigns)
  · intro h
    refine ⟨⟨?_, ?_⟩, fun bindings => assigns_of_match hcrate⟩
    · intro hsome
      obtain ⟨-, values, hassigns, -⟩ := (isSome_matchUriTemplate_iff hcrate).mp hsome
      exact ⟨values, hassigns⟩
    · intro hassigns
      exact (isSome_matchUriTemplate_iff hcrate).mpr (h hassigns)

end UriTemplate

/-! ## A crate for small patterns -/

/-- `is_meta_character` of the crate's parser. -/
def isMetaCharacter (c : Char) : Bool := "\\.+*?()|[]\x7b\x7d^$#&-~".toList.contains c

def escapeChars (text : List Char) : List Char :=
  text.flatMap fun c => if isMetaCharacter c then ['\\', c] else [c]

/-- The spans of a pattern, after its first anchor; a text comes a character at a time. -/
def parseSpans : List Char → Option (List Span)
  | [] => none
  | '$' :: rest => if rest = [] then some [] else none
  | '\\' :: c :: rest => (parseSpans rest).map (.literal [c] :: ·)
  | '(' :: '.' :: '+' :: ')' :: rest => (parseSpans rest).map (.across :: ·)
  | '(' :: '[' :: '^' :: '/' :: ']' :: '+' :: ')' :: rest => (parseSpans rest).map (.segment :: ·)
  | c :: rest => if isMetaCharacter c then none else (parseSpans rest).map (.literal [c] :: ·)

def smallCrate : RegexCrate where
  Regex := List Span
  escape text := String.ofList (escapeChars text.toList)
  new pattern :=
    match pattern.toList with
    | '^' :: rest => parseSpans rest
    | _ => none
  captures spans uri :=
    (captures (spans.map Span.piece) uri.toList).map fun values => uri :: values.map String.ofList

def Span.split : Span → List Span
  | .literal text => text.map fun c => .literal [c]
  | span => [span]

theorem parseSpans_escapeChars (text rest : List Char) :
    parseSpans (escapeChars text ++ rest) =
      (parseSpans rest).map ((text.map fun c => Span.literal [c]) ++ ·) := by
  induction text with
  | nil => simp [escapeChars]
  | cons c text ih =>
      have hcons : escapeChars (c :: text) =
          (if isMetaCharacter c then ['\\', c] else [c]) ++ escapeChars text := rfl
      rw [hcons]
      by_cases hmeta : isMetaCharacter c = true
      · rw [if_pos hmeta]
        show parseSpans ('\\' :: c :: (escapeChars text ++ rest)) = _
        rw [parseSpans, ih, Option.map_map]
        rfl
      · rw [if_neg hmeta]
        show parseSpans (c :: (escapeChars text ++ rest)) = _
        rw [parseSpans, if_neg hmeta, ih, Option.map_map]
        · rfl
        -- the other cases begin with a character that is escaped
        all_goals
          intros
          subst_vars
          exact hmeta rfl

theorem parseSpans_renderAll (spans : List Span) :
    parseSpans ((renderAll smallCrate spans).toList ++ ['$']) =
      some (spans.flatMap Span.split) := by
  induction spans with
  | nil => rfl
  | cons span spans ih =>
      rw [renderAll, String.toList_append, List.append_assoc, List.flatMap_cons]
      rcases span with text | _ | _
      · show parseSpans ((String.ofList (escapeChars (String.ofList text).toList)).toList ++ _) = _
        rw [String.toList_ofList, String.toList_ofList, parseSpans_escapeChars, ih]
        rfl
      · show parseSpans ('(' :: '[' :: '^' :: '/' :: ']' :: '+' :: ')' ::
          ((renderAll smallCrate spans).toList ++ ['$'])) = _
        rw [parseSpans, ih]
        rfl
      · show parseSpans ('(' :: '.' :: '+' :: ')' ::
          ((renderAll smallCrate spans).toList ++ ['$'])) = _
        rw [parseSpans, ih]
        rfl

theorem captures_split (spans : List Span) (text : List Char) :
    captures ((spans.flatMap Span.split).map Span.piece) text =
      captures (spans.map Span.piece) text := by
  induction spans generalizing text with
  | nil => rfl
  | cons span spans ih =>
      rw [List.flatMap_cons, List.map_append, List.map_cons]
      rcases span with l | _ | _
      · show captures ((l.map fun c => Span.literal [c]).map Span.piece ++ _) text = _
        rw [List.map_map]
        exact (captures_symbols l _ text).trans (captures_cons_congr _ ih text)
      · exact captures_cons_congr _ ih text
      · exact captures_cons_congr _ ih text

theorem smallCrate_faithful : smallCrate.Faithful := by
  intro spans re hre uri
  have hnew : smallCrate.new (anchored smallCrate spans) = some (spans.flatMap Span.split) := by
    rw [← parseSpans_renderAll]
    show (match (anchored smallCrate spans).toList with
      | '^' :: rest => parseSpans rest
      | _ => none) = _
    rw [anchored, String.toList_append, String.toList_append]
    rfl
  cases hnew.symm.trans hre
  show (captures _ uri.toList).map _ = _
  rw [captures_split]

/-! ## Two templates -/

namespace UriTemplate

/-- `db://{table}/{id}` -/
def rowTemplate : UriTemplate where
  parts := [(⟨"db://".toList, by decide⟩, ⟨false, "table".toList, by decide, by decide⟩),
    (⟨"/".toList, by decide⟩, ⟨false, "id".toList, by decide, by decide⟩)]
  last := ⟨[], by decide⟩

/-- `file://{+path}` -/
def pathTemplate : UriTemplate where
  parts := [(⟨"file://".toList, by decide⟩, ⟨true, "path".toList, by decide, by decide⟩)]
  last := ⟨[], by decide⟩

example : rowTemplate.text = "db://{table}/{id}" ∧ pathTemplate.text = "file://{+path}" := by
  decide

theorem accepted_rowTemplate : rowTemplate.Accepted smallCrate := by decide

/-- A row is found under its template. -/
theorem row_inverts : Inverts smallCrate rowTemplate "db://users/42" := by
  apply (inverts_iff smallCrate smallCrate_faithful rowTemplate "db://users/42").mpr
  intro _
  refine ⟨accepted_rowTemplate, ["users".toList, "42".toList], ⟨?_, by decide⟩, ?_⟩
  · exact .cons (by decide) (.cons (by decide) .nil)
  · exact .cons (by decide) (.cons (by decide) .nil)

/-- A path with a line feed is an expansion of its template, and is not matched. -/
theorem line_feed_unmatched : ¬ Inverts smallCrate pathTemplate "file:///a\nb" := by
  rintro ⟨hmatched, -⟩
  have hassigns : pathTemplate.Assigns ["/a\nb".toList] "file:///a\nb".toList :=
    ⟨.cons (by decide) .nil, by decide⟩
  have hnone : matchUriTemplate smallCrate pathTemplate.text "file:///a\nb" = none := by
    rw [matchUriTemplate_of_accepted smallCrate_faithful (by decide)]
    decide
  have hsome := hmatched.mpr ⟨_, hassigns⟩
  rw [hnone] at hsome
  cases hsome

end UriTemplate

end TurboMcp.Server
