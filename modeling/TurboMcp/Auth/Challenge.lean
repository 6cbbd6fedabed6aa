import Mathlib.Data.List.Induction
import TurboMcp.Lib.Search
import TurboMcp.Lib.Text
import TurboMcp.Service.McpHeaders

/-!
# Reading a Bearer challenge

The client's parser of `WWW-Authenticate`.  It looks for the scheme in the text
of the header, and reads parameters from there up to the first thing that is not
one.  Texts are taken apart as lists of characters.
-/

namespace TurboMcp.Auth

open TurboMcp.Core TurboMcp.Lib TurboMcp.Service.McpHeaders

/-- A parsed `Bearer` challenge. -/
structure BearerChallenge where
  resourceMetadata : Option String
  scope : Option String
  error : Option String
  errorDescription : Option String
  deriving DecidableEq

namespace BearerChallenge

/-- `BearerChallenge::default`. -/
def default : BearerChallenge :=
  { resourceMetadata := none, scope := none, error := none, errorDescription := none }

def isInsufficientScope (challenge : BearerChallenge) : Bool :=
  challenge.error = some "insufficient_scope"

/-- The challenged scopes as a list. -/
def scopes (challenge : BearerChallenge) : List String :=
  splitAsciiWhitespace (challenge.scope.getD "")

/-- Take one parameter over; unknown ones are ignored. -/
def set (challenge : BearerChallenge) (name value : String) : BearerChallenge :=
  match asciiLower name with
  | "resource_metadata" => { challenge with resourceMetadata := some value }
  | "scope" => { challenge with scope := some value }
  | "error" => { challenge with error := some value }
  | "error_description" => { challenge with errorDescription := some value }
  | _ => challenge

end BearerChallenge

/-! ## The scheme -/

/-- What may stand before a scheme. -/
def delimits (c : Char) : Bool := c = ' ' || c = ',' || c = '\t'

/-- What may stand after a scheme. -/
def isBlank (c : Char) : Bool := c = ' ' || c = '\t'

/-- Locate `scheme` as a standalone token in a lowercased header value. -/
def findScheme (lower scheme : List Char) : Option Nat := searchAlone delimits isBlank scheme lower

/-! ## The parameters -/

def isParamNameChar (c : Char) : Bool := c.isAlphanum || c = '_' || c = '-'

/-- A quoted string from after its opening quote on: its value, and what follows. -/
def readQuoted : List Char → List Char × List Char
  | [] => ([], [])
  | '"' :: l => ([], l)
  | ['\\'] => ([], [])
  | '\\' :: escaped :: l => (escaped :: (readQuoted l).1, (readQuoted l).2)
  | c :: l => (c :: (readQuoted l).1, (readQuoted l).2)

/-- A value, quoted or not, and what follows it. -/
def readValue : List Char → List Char × List Char
  | '"' :: quoted => readQuoted quoted
  | value => (value.takeWhile fun c => !delimits c, value.dropWhile fun c => !delimits c)

/-- One round of `parse_auth_params`: a parameter and what follows it, or nothing
where the reading stops. -/
def nextParam (input : List Char) : Option ((String × String) × List Char) :=
  let rest := input.dropWhile delimits
  let name := rest.takeWhile isParamNameChar
  if name.isEmpty then none
  else
    match (rest.dropWhile isParamNameChar).dropWhile isWhitespace with
    | '=' :: afterEq =>
        let value := readValue (afterEq.dropWhile isWhitespace)
        some ((String.ofList name, String.ofList value.1), value.2)
    | _ => none

/-- The rounds of `parse_auth_params`; every one reads on. -/
def paramsFrom : Nat → List Char → List (String × String)
  | 0, _ => []
  | rounds + 1, input =>
      match nextParam input with
      | none => []
      | some (param, rest) => param :: paramsFrom rounds rest

/-- The parameters up to the next challenge, as the ordered map they end up in. -/
def parseAuthParams (input : List Char) : List (String × String) :=
  Entries.sorted (paramsFrom (input.length + 1) input)

/-- Parse the `Bearer` challenge out of a `WWW-Authenticate` value. -/
def parseBearerChallenge (header : String) : Option BearerChallenge :=
  (findScheme (header.toList.map Char.toLower) "bearer".toList).map fun start =>
    (parseAuthParams (header.toList.drop (start + "bearer".length))).foldl
      (fun challenge param => challenge.set param.1 param.2) .default

example : parseBearerChallenge "Basic realm=\"b\", Bearer scope=\"a b\"" =
    some { BearerChallenge.default with scope := some "a b" } := by decide

example : parseBearerChallenge "bearer scope=files:read, error=invalid_token" =
    some
      { BearerChallenge.default with
        scope := some "files:read"
        error := some "invalid_token" } := by decide

/-! ## The challenge as its parameters have it -/

namespace BearerChallenge

def ofParams (f : String → Option String) : BearerChallenge where
  resourceMetadata := f "resource_metadata"
  scope := f "scope"
  error := f "error"
  errorDescription := f "error_description"

def recognised : List String := ["resource_metadata", "scope", "error", "error_description"]

theorem ofParams_eq_iff {f g : String → Option String} :
    ofParams f = ofParams g ↔ ∀ key ∈ recognised, f key = g key := by
  simp [ofParams, recognised]

theorem set_ofParams (f : String → Option String) (name value : String) :
    (ofParams f).set name value =
      ofParams fun key => if asciiLower name = key then some value else f key := by
  unfold set
  split
  · rename_i heq
    simp [ofParams, heq]
  · rename_i heq
    simp [ofParams, heq]
  · rename_i heq
    simp [ofParams, heq]
  · rename_i heq
    simp [ofParams, heq]
  · rename_i h₁ h₂ h₃ h₄
    simp only [ofParams]
    rw [if_neg h₁, if_neg h₂, if_neg h₃, if_neg h₄]

/-- The value a parameter ends up with. -/
def lastValue (params : List (String × String)) (key : String) : Option String :=
  params.foldl (fun o param => if asciiLower param.1 = key then some param.2 else o) none

theorem foldl_set (params : List (String × String)) :
    params.foldl (fun challenge param => challenge.set param.1 param.2) .default =
      ofParams (lastValue params) := by
  suffices hgen : ∀ f, params.foldl (fun challenge param => challenge.set param.1 param.2)
      (ofParams f) = ofParams fun key =>
        params.foldl (fun o param => if asciiLower param.1 = key then some param.2 else o) (f key) from
    hgen fun _ => none
  induction params with
  | nil => exact fun f => rfl
  | cons param params ih =>
      intro f
      rw [List.foldl_cons, set_ofParams, ih]
      rfl

/-- Where no name is there twice, that is the value given. -/
theorem lastValue_eq_some_iff {params : List (String × String)}
    (hnodup : (params.map fun param => asciiLower param.1).Nodup) {key value : String} :
    lastValue params key = some value ↔
      ∃ param ∈ params, asciiLower param.1 = key ∧ param.2 = value := by
  induction params using List.reverseRecOn with
  | nil => simp [lastValue]
  | append_singleton params param ih =>
      rw [List.map_append, List.nodup_append] at hnodup
      have hfold : lastValue (params ++ [param]) key =
          if asciiLower param.1 = key then some param.2 else lastValue params key := by
        simp [lastValue]
      rw [hfold]
      by_cases hkey : asciiLower param.1 = key
      · rw [if_pos hkey, Option.some.injEq]
        constructor
        · rintro rfl
          exact ⟨param, by simp, hkey, rfl⟩
        · rintro ⟨param', hmem, hkey', rfl⟩
          rcases List.mem_append.mp hmem with hmem | hmem
          · exact absurd (hkey'.trans hkey.symm)
              (hnodup.2.2 _ (List.mem_map_of_mem hmem) _ (by simp))
          · rw [List.mem_singleton.mp hmem]
      · rw [if_neg hkey, ih hnodup.1]
        constructor
        · rintro ⟨param', hmem, h⟩
          exact ⟨param', List.mem_append_left _ hmem, h⟩
        · rintro ⟨param', hmem, h⟩
          rcases List.mem_append.mp hmem with hmem | hmem
          · exact ⟨param', hmem, h⟩
          · rw [List.mem_singleton.mp hmem] at h
            exact absurd h.1 hkey

end BearerChallenge

end TurboMcp.Auth
