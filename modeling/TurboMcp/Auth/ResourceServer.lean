import TurboMcp.Auth.ChallengeGrammar
import TurboMcp.Auth.Principal
import TurboMcp.Lib.Lines

/-!
# The resource server

The authenticator of the HTTP transport: it takes the bearer token out of the
request, has it validated, and asks the principal for the required scopes.  What
it refuses it answers with a challenge, the values of which are quoted as they
are.
-/

namespace TurboMcp.Auth

open TurboMcp.Core TurboMcp.Lib TurboMcp.Service.McpHeaders

/-! ## The authenticator -/

inductive AuthDecision
  | allow (principal : Value)
  | challenge (status : Nat) (wwwAuthenticate : String)
  deriving DecidableEq

structure ResourceServer where
  metadataUrl : String
  requiredScopes : List String

/-- `str::split_once`, on a space. -/
def splitOnce (s : String) : Option (String × String) :=
  if ' ' ∈ s.toList then
    some (String.ofList (s.toList.takeWhile (· ≠ ' ')),
      String.ofList (s.toList.dropWhile (· ≠ ' ')).tail)
  else none

/-- The token of an `Authorization: Bearer <token>` value. -/
def bearerToken (authorization : Option String) : Except AuthError String :=
  match authorization with
  | none => .error .missingToken
  | some header =>
      match splitOnce header with
      | none => .error .malformedHeader
      | some (scheme, token) =>
          if !eqIgnoreAsciiCase scheme "bearer" then .error .malformedHeader
          else
            let token := trim isWhitespace token.toList
            if token.isEmpty then .error .malformedHeader else .ok (String.ofList token)

/-- A `Bearer <k>="<v>", …` value. -/
def wwwAuthenticate (params : List (String × String)) : String :=
  "Bearer " ++ ", ".intercalate (params.map fun p => p.1 ++ "=\"" ++ p.2 ++ "\"")

namespace ResourceServer

/-- The 401 challenge for a missing or invalid token. -/
def unauthorized (rs : ResourceServer) (invalid : Bool) : AuthDecision :=
  .challenge 401 (wwwAuthenticate
    ((if invalid then [("error", "invalid_token")] else []) ++
      (if !rs.requiredScopes.isEmpty then [("scope", " ".intercalate rs.requiredScopes)] else []) ++
      [("resource_metadata", rs.metadataUrl)]))

/-- The 403 challenge for a valid token that lacks a required scope. -/
def forbidden (rs : ResourceServer) : AuthDecision :=
  .challenge 403 (wwwAuthenticate
    [("error", "insufficient_scope"),
      ("scope", " ".intercalate rs.requiredScopes),
      ("resource_metadata", rs.metadataUrl)])

section

-- the validator, which looks at signatures, keys and the clock
variable (validate : String → Except AuthError AuthPrincipal)

def authenticate (rs : ResourceServer) (authorization : Option String) : AuthDecision :=
  match bearerToken authorization with
  | .error .missingToken => rs.unauthorized false
  | .error _ => rs.unauthorized true
  | .ok token =>
      match validate token with
      | .error _ => rs.unauthorized true
      | .ok principal =>
          if !principal.hasScopes rs.requiredScopes then rs.forbidden
          else .allow principal.asserted

end

end ResourceServer

/-! ## What is emitted, as a challenge -/

/-- A text that can be quoted as it is. -/
def Plain (s : String) : Prop := ∀ c ∈ s.toList, c ≠ '"' ∧ c ≠ '\\'

instance (s : String) : Decidable (Plain s) :=
  inferInstanceAs (Decidable (∀ c ∈ s.toList, c ≠ '"' ∧ c ≠ '\\'))

theorem chars_quotedString (s : String) : (quotedString s).chars = s.toList := by
  unfold quotedString
  rw [ParamValue.chars, List.map_map]
  conv_rhs => rw [← List.map_id s.toList]
  apply List.map_congr_left
  intro c hc
  simp only [Function.comp_apply]
  split
  · rfl
  · rfl

theorem render_quotedString {s : String} (hs : Plain s) :
    (quotedString s).render = '"' :: (s.toList ++ ['"']) := by
  unfold quotedString
  rw [ParamValue.render, List.flatMap_map]
  congr 2
  conv_rhs => rw [← List.flatMap_singleton' s.toList]
  apply List.flatMap_congr
  intro c hc
  rw [dif_pos (hs c hc)]
  rfl

/-- A parameter, quoted. -/
def quotedParam (name : Token) (value : String) : AuthParam := ⟨name, quotedString value⟩

theorem text_quotedParam (name : Token) (value : String) :
    (quotedParam name value).text = value := by
  unfold AuthParam.text quotedParam
  rw [chars_quotedString, String.ofList_toList]

def errorName : Token := .of "error" (by decide) (by decide)

theorem scope_nonempty : "scope".toList ≠ [] := by decide

theorem scope_tokenChars : ∀ c ∈ "scope".toList, isTokenChar c = true := by decide

def scopeName : Token := .of "scope" scope_nonempty scope_tokenChars

def metadataName : Token := .of "resource_metadata" (by decide) (by decide)

theorem key_error (value : String) : (quotedParam errorName value).key = "error" := by
  show String.ofList errorName.lower = "error"
  decide

theorem key_scope (value : String) : (quotedParam scopeName value).key = "scope" := by
  show String.ofList scopeName.lower = "scope"
  decide

theorem key_metadata (value : String) :
    (quotedParam metadataName value).key = "resource_metadata" := by
  show String.ofList metadataName.lower = "resource_metadata"
  decide

/-- The parameters of a challenge that the resource server emits. -/
def emitted (error scope : Option String) (url : String) : List AuthParam :=
  (error.map (quotedParam errorName)).toList ++ (scope.map (quotedParam scopeName)).toList ++
    [quotedParam metadataName url]

theorem given_quotedParam (s : String) (hne : s.toList ≠ [])
    (h : ∀ c ∈ s.toList, isTokenChar c = true) (value : String) :
    (quotedParam (.of s hne h) value).given = (s, value) := by
  unfold AuthParam.given
  rw [text_quotedParam]
  exact congrArg (·, value) String.ofList_toList

theorem map_given_emitted (error scope : Option String) (url : String) :
    (emitted error scope url).map AuthParam.given =
      (error.map fun s => ("error", s)).toList ++ (scope.map fun s => ("scope", s)).toList ++
        [("resource_metadata", url)] := by
  unfold emitted errorName scopeName metadataName
  rcases error with _ | e
  · rcases scope with _ | s
    · simp [given_quotedParam]
    · simp [given_quotedParam]
  · rcases scope with _ | s
    · simp [given_quotedParam]
    · simp [given_quotedParam]

theorem map_wwwAuthenticate {ps : List AuthParam} (hne : ps ≠ [])
    (hplain : ∀ p ∈ ps, p.value.render = '"' :: (p.value.chars ++ ['"']))
    (hnodup : (ps.map AuthParam.key).Nodup) :
    wwwAuthenticate (ps.map AuthParam.given) = renderChallenges [⟨bearerScheme, ps, hnodup⟩] := by
  have hparam : ∀ p ∈ ps, (p.given.1 ++ "=\"" ++ p.given.2 ++ "\"").toList = p.render := by
    intro p hp
    rw [AuthParam.render, hplain p hp]
    simp [AuthParam.given, AuthParam.text]
  apply String.toList_injective
  rw [toList_renderChallenges, wwwAuthenticate, String.toList_append, String.toList_intercalate,
    List.map_map, List.map_map, List.map_singleton, List.intercalate_singleton,
    AuthChallenge.render, if_neg (by simpa using hne)]
  show "Bearer".toList ++ ' ' :: separator.intercalate _ = "Bearer".toList ++ ' ' :: _
  congr 3
  exact List.map_congr_left hparam

/-- What is emitted is read back. -/
theorem parse_emitted (error scope : Option String) (url : String)
    (herror : ∀ s, error = some s → Plain s) (hscope : ∀ s, scope = some s → Plain s)
    (hurl : Plain url) :
    parseBearerChallenge (wwwAuthenticate ((emitted error scope url).map AuthParam.given)) =
      some { resourceMetadata := some url, scope, error, errorDescription := none } := by
  have hne : emitted error scope url ≠ [] := by simp [emitted]
  have hplain : ∀ p ∈ emitted error scope url,
      p.value.render = '"' :: (p.value.chars ++ ['"']) := by
    have hquoted : ∀ name s, Plain s → (quotedParam name s).value.render =
        '"' :: ((quotedParam name s).value.chars ++ ['"']) := by
      intro name s hs
      rw [quotedParam, chars_quotedString, render_quotedString hs]
    intro p hp
    simp only [emitted, List.mem_append, Option.mem_toList, Option.map_eq_some_iff,
      List.mem_singleton] at hp
    rcases hp with (⟨s, hs, rfl⟩ | ⟨s, hs, rfl⟩) | rfl
    · exact hquoted _ s (herror s hs)
    · exact hquoted _ s (hscope s hs)
    · exact hquoted _ url hurl
  have hkeys : (emitted error scope url).map AuthParam.key =
      (error.map fun _ => "error").toList ++ (scope.map fun _ => "scope").toList ++
        ["resource_metadata"] := by
    rcases error with _ | e
    · rcases scope with _ | s
      · simp [emitted, key_metadata]
      · simp [emitted, key_scope, key_metadata]
    · rcases scope with _ | s
      · simp [emitted, key_error, key_metadata]
      · simp [emitted, key_error, key_scope, key_metadata]
  have hnodup : ((emitted error scope url).map AuthParam.key).Nodup := by
    rw [hkeys]
    rcases error with _ | e
    · rcases scope with _ | s
      · exact List.nodup_singleton _
      · show ["scope", "resource_metadata"].Nodup
        decide
    · rcases scope with _ | s
      · show ["error", "resource_metadata"].Nodup
        decide
      · show ["error", "scope", "resource_metadata"].Nodup
        decide
  rw [map_wwwAuthenticate hne hplain hnodup]
  have hbearer : bearerScheme.lower = "bearer".toList := by decide
  have husual : ∀ p ∈ emitted error scope url, p.Usual := by
    have hnames : ∀ name ∈ [errorName.chars, scopeName.chars, metadataName.chars],
        ∀ c ∈ name, isParamNameChar c = true := by decide
    intro p hp
    simp only [emitted, List.mem_append, Option.mem_toList, Option.map_eq_some_iff,
      List.mem_singleton] at hp
    rcases hp with (⟨s, -, rfl⟩ | ⟨s, -, rfl⟩) | rfl
    · exact hnames errorName.chars (by simp)
    · exact hnames scopeName.chars (by simp)
    · exact hnames metadataName.chars (by simp)
  have hparse := parse_of_findable [] [] ⟨bearerScheme, emitted error scope url, hnodup⟩
    (by simp) (by simp) hbearer (.inl hne)
  rw [List.nil_append] at hparse
  rw [hparse, List.takeWhile_eq_self_iff.mpr (by simpa using husual)]
  congr 1
  rcases error with _ | e
  · rcases scope with _ | s
    · simp [BearerChallenge.ofParams, valueIn, emitted, key_metadata, text_quotedParam]
    · simp [BearerChallenge.ofParams, valueIn, emitted, key_scope, key_metadata, text_quotedParam]
  · rcases scope with _ | s
    · simp [BearerChallenge.ofParams, valueIn, emitted, key_error, key_metadata, text_quotedParam]
    · simp [BearerChallenge.ofParams, valueIn, emitted, key_error, key_scope, key_metadata,
        text_quotedParam]

/-! ## Every refusal is readable -/

/-- Why a request is refused. -/
inductive Refusal
  | missingToken
  | badToken
  | missingScope
  deriving DecidableEq

namespace Refusal

def status : Refusal → Nat
  | missingScope => 403
  | _ => 401

def error : Refusal → Option String
  | missingToken => none
  | badToken => some "invalid_token"
  | missingScope => some "insufficient_scope"

theorem plain_error (refusal : Refusal) {s : String} (h : refusal.error = some s) : Plain s := by
  cases refusal with
  | missingToken => cases h
  | badToken =>
      cases h
      decide
  | missingScope =>
      cases h
      decide

theorem error_eq_insufficientScope (refusal : Refusal) :
    refusal.error = some "insufficient_scope" ↔ refusal = .missingScope := by
  cases refusal with
  | missingToken => decide
  | badToken => decide
  | missingScope => decide

end Refusal

namespace ResourceServer

variable (validate : String → Except AuthError AuthPrincipal)

/-- Why the request is refused, if it is: no token, a bad one, or one that lacks a
required scope. -/
def refusal (rs : ResourceServer) (authorization : Option String) : Option Refusal :=
  match bearerToken authorization with
  | .error e => some (if e = .missingToken then .missingToken else .badToken)
  | .ok token =>
      match validate token with
      | .error _ => some .badToken
      | .ok principal => if principal.hasScopes rs.requiredScopes then none else some .missingScope

/-- The required scopes, if there are any. -/
def scopeGuidance (rs : ResourceServer) : Option String :=
  if rs.requiredScopes = [] then none else some (" ".intercalate rs.requiredScopes)

/-- The answer to a refused request. -/
def refused (rs : ResourceServer) (refusal : Refusal) : AuthDecision :=
  .challenge refusal.status
    (wwwAuthenticate ((emitted refusal.error rs.scopeGuidance rs.metadataUrl).map AuthParam.given))

theorem unauthorized_eq (rs : ResourceServer) (invalid : Bool) :
    rs.unauthorized invalid = rs.refused (if invalid then .badToken else .missingToken) := by
  unfold unauthorized refused scopeGuidance
  rw [map_given_emitted]
  by_cases hscopes : rs.requiredScopes = []
  · cases invalid with
    | false => simp [hscopes, Refusal.error, Refusal.status]
    | true => simp [hscopes, Refusal.error, Refusal.status]
  · cases invalid with
    | false => simp [hscopes, Refusal.error, Refusal.status]
    | true => simp [hscopes, Refusal.error, Refusal.status]

theorem forbidden_eq (rs : ResourceServer) (hscopes : rs.requiredScopes ≠ []) :
    rs.forbidden = rs.refused .missingScope := by
  unfold forbidden refused scopeGuidance
  rw [map_given_emitted, if_neg hscopes]
  rfl

/-- A refused request is answered with the challenge of its refusal, the others
are allowed. -/
theorem authenticate_eq (rs : ResourceServer) (authorization : Option String) :
    match rs.refusal validate authorization with
    | some refusal => rs.authenticate validate authorization = rs.refused refusal
    | none => ∃ principal, rs.authenticate validate authorization = .allow principal := by
  unfold refusal authenticate
  cases bearerToken authorization with
  | error e =>
      cases e with
      | missingToken => exact rs.unauthorized_eq false
      | _ => exact rs.unauthorized_eq true
  | ok token =>
      simp only
      cases validate token with
      | error e => exact rs.unauthorized_eq true
      | ok principal =>
          simp only
          cases hgranted : principal.hasScopes rs.requiredScopes with
          | true => exact ⟨principal.asserted, rfl⟩
          | false =>
              apply rs.forbidden_eq
              intro hnil
              rw [hnil] at hgranted
              cases hgranted

theorem plain_scopeGuidance (rs : ResourceServer)
    (hscopes : ∀ scope ∈ rs.requiredScopes, Plain scope) {s : String} (h : rs.scopeGuidance = some s) : Plain s := by
  unfold scopeGuidance at h
  split at h
  · cases h
  · cases h
    intro c hc
    rw [String.toList_intercalate] at hc
    rcases mem_intercalate hc with hspace | ⟨w, hw, hc⟩
    · obtain rfl := List.mem_singleton.mp hspace
      decide
    · obtain ⟨scope, hscope, rfl⟩ := List.mem_map.mp hw
      exact hscopes scope hscope c hc

/-- Scopes that are words are the words of their guidance. -/
theorem scopes_scopeGuidance (rs : ResourceServer)
    (hscopes : ∀ scope ∈ rs.requiredScopes, IsWord isAsciiBlank scope.toList) :
    splitAsciiWhitespace (rs.scopeGuidance.getD "") = rs.requiredScopes := by
  unfold scopeGuidance
  split
  · rename_i hnil
    rw [hnil]
    rfl
  · have hwords : ∀ w ∈ rs.requiredScopes.map String.toList, IsWord isAsciiBlank w := by
      intro w hw
      obtain ⟨scope, hscope, rfl⟩ := List.mem_map.mp hw
      exact hscopes scope hscope
    show splitAsciiWhitespace (" ".intercalate rs.requiredScopes) = _
    unfold splitAsciiWhitespace
    rw [String.toList_intercalate]
    show (words isAsciiBlank ([' '].intercalate _)).map String.ofList = _
    rw [words_intercalate (by decide) hwords, List.map_map]
    conv_rhs => rw [← List.map_id rs.requiredScopes]
    exact List.map_congr_left fun scope _ => String.ofList_toList

/-- **Challenges are readable**: where the metadata URL and the required scopes need
no escaping, and the scopes are words, the client reads of every refusal its error,
the required scopes and the metadata URL. -/
theorem challenge_readable (rs : ResourceServer) (authorization : Option String)
    (status : Nat) (www : String)
    (hurl : Plain rs.metadataUrl)
    (hscopes : ∀ scope ∈ rs.requiredScopes, Plain scope ∧ IsWord isAsciiBlank scope.toList)
    (hchallenge : rs.authenticate validate authorization = .challenge status www) :
    ∃ refusal challenge, rs.refusal validate authorization = some refusal ∧
      status = refusal.status ∧ parseBearerChallenge www = some challenge ∧
      challenge.error = refusal.error ∧ challenge.resourceMetadata = some rs.metadataUrl ∧
      challenge.scope = rs.scopeGuidance ∧ challenge.scopes = rs.requiredScopes ∧
      challenge.errorDescription = none ∧
      (challenge.isInsufficientScope = true ↔ refusal = .missingScope) := by
  have hanswer := rs.authenticate_eq validate authorization
  cases hrefusal : rs.refusal validate authorization with
  | none =>
      rw [hrefusal] at hanswer
      obtain ⟨principal, hallow⟩ := hanswer
      rw [hallow] at hchallenge
      cases hchallenge
  | some refusal =>
      rw [hrefusal] at hanswer
      simp only at hanswer
      rw [hchallenge] at hanswer
      cases hanswer
      have hparse := parse_emitted refusal.error rs.scopeGuidance rs.metadataUrl
        (fun s hs => refusal.plain_error hs)
        (fun s hs => rs.plain_scopeGuidance (fun scope hscope => (hscopes scope hscope).1) hs) hurl
      refine ⟨refusal, _, rfl, rfl, hparse, rfl, rfl, rfl, ?_, rfl, ?_⟩
      · exact rs.scopes_scopeGuidance fun scope hscope => (hscopes scope hscope).2
      · exact decide_eq_true_iff.trans refusal.error_eq_insufficientScope

/-! ### Two servers -/

def usualServer : ResourceServer where
  metadataUrl := "https://mcp.example.com/.well-known/oauth-protected-resource"
  requiredScopes := ["files:read", "files:write"]

/-- A request without a token is refused readably. -/
theorem missing_token_readable :
    ∃ refusal challenge,
      usualServer.refusal (fun _ => .error .missingToken) none = some refusal ∧
      401 = refusal.status ∧
      parseBearerChallenge (wwwAuthenticate
        [("scope", "files:read files:write"),
          ("resource_metadata", "https://mcp.example.com/.well-known/oauth-protected-resource")]) =
            some challenge ∧
      challenge.error = refusal.error ∧
      challenge.resourceMetadata = some usualServer.metadataUrl ∧
      challenge.scope = usualServer.scopeGuidance ∧
      challenge.scopes = usualServer.requiredScopes ∧ challenge.errorDescription = none ∧
      (challenge.isInsufficientScope = true ↔ refusal = .missingScope) :=
  challenge_readable (fun _ => .error .missingToken) usualServer none 401 _ (by decide)
    (by
      intro scope hscope
      simp only [usualServer, List.mem_cons, List.not_mem_nil, or_false] at hscope
      rcases hscope with rfl | rfl
      · exact ⟨by decide, by decide, by decide⟩
      · exact ⟨by decide, by decide, by decide⟩)
    (by decide)

def quotingServer : ResourceServer where
  metadataUrl := "https://mcp.example.com/\"docs\""
  requiredScopes := ["files read"]

/-- A quote in the URL ends it early, and a scope with a space in it comes apart. -/
theorem quoted_url_cut_short :
    ∃ www, quotingServer.authenticate (fun _ => .error .missingToken) none = .challenge 401 www ∧
      ∃ challenge, parseBearerChallenge www = some challenge ∧
        challenge.resourceMetadata ≠ some quotingServer.metadataUrl ∧
        challenge.scopes ≠ quotingServer.requiredScopes :=
  ⟨_, rfl, _, rfl, by decide, by decide⟩

end ResourceServer

end TurboMcp.Auth
