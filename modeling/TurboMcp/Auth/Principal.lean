import TurboMcp.Core.Scopes

/-!
# Principals

A validated claim set makes a principal, which the transport asks for the scopes
every request needs.  The handlers see the identity lifted from it, and a tool
that needs scopes asks that.  The two read the scopes from the claims apart: a
principal's are those of `scope` or else those of `scp`, an identity's are both.
-/

namespace TurboMcp.Auth

open TurboMcp.Core TurboMcp.Lib

/-- Why a bearer token was rejected. -/
inductive AuthError
  | missingToken
  | malformedHeader
  | invalidToken (detail : String)
  | keyUnavailable (detail : String)
  | insufficientScope (scope : String)
  deriving DecidableEq

/-- A validated bearer principal. -/
structure AuthPrincipal where
  subject : String
  scopes : List String
  claims : Map
  deriving DecidableEq

namespace AuthPrincipal

/-- `AuthPrincipal::has_scopes`. -/
def hasScopes (principal : AuthPrincipal) (required : List String) : Bool :=
  required.all fun r => principal.scopes.any fun s => s = r

/-- What the transport asserts of the principal. -/
def asserted (principal : AuthPrincipal) : Value :=
  .object [("sub", .string principal.subject), ("claims", .object principal.claims)]

theorem hasScopes_iff {principal : AuthPrincipal} {required : List String} :
    principal.hasScopes required = true ↔ ∀ r ∈ required, r ∈ principal.scopes := by
  unfold hasScopes
  simp

end AuthPrincipal

/-- Scopes from `scope` or `scp`. -/
def extractScopes (claims : Map) : List String :=
  match (claims.get "scope").bind Value.asStr with
  | some scope => splitWhitespace scope
  | none =>
      match (claims.get "scp").bind Value.asArray with
      | some arr => arr.filterMap Value.asStr
      | none => []

def principalFromClaims (claims : Map) : Except AuthError AuthPrincipal :=
  match (claims.get "sub").bind Value.asStr with
  | none => .error (.invalidToken "token has no `sub` claim")
  | some subject => .ok { subject, scopes := extractScopes claims, claims }

/-- The identity lifted from a principal. -/
def AuthPrincipal.identity (principal : AuthPrincipal) : Identity :=
  Meta.principalIdentity principal.asserted

/-! ## What the claims grant -/

/-- The words of the `scope` claim, if it is a string. -/
def scopeWords (claims : Map) : List String :=
  (((claims.get "scope").bind Value.asStr).map splitWhitespace).getD []

/-- The strings of the `scp` claim, if it is an array. -/
def scpStrings (claims : Map) : List String :=
  (((claims.get "scp").bind Value.asArray).map fun arr => arr.filterMap Value.asStr).getD []

theorem extractScopes_eq (claims : Map) :
    extractScopes claims =
      if ((claims.get "scope").bind Value.asStr).isSome then scopeWords claims
      else scpStrings claims := by
  unfold extractScopes scopeWords scpStrings
  cases (claims.get "scope").bind Value.asStr with
  | some scope => rfl
  | none =>
      cases (claims.get "scp").bind Value.asArray with
      | some arr => rfl
      | none => rfl

theorem grantedScopes_bearer (sub : String) (claims : Map) :
    (Identity.bearer sub claims).grantedScopes = scopeWords claims ++ scpStrings claims := by
  unfold Identity.grantedScopes scopeWords scpStrings
  simp only [Identity.claim]
  congr 1
  · rcases claims.get "scope" with _ | v
    · rfl
    · cases v with
      | _ => rfl
  · rcases claims.get "scp" with _ | v
    · rfl
    · cases v with
      | _ => rfl

theorem identity_eq (principal : AuthPrincipal) :
    principal.identity = .bearer principal.subject principal.claims := by
  unfold AuthPrincipal.identity Meta.principalIdentity AuthPrincipal.asserted
  simp [Map.get, Lib.Entries.get]

theorem principalFromClaims_ok {claims : Map} {principal : AuthPrincipal}
    (h : principalFromClaims claims = .ok principal) :
    principal.claims = claims ∧ principal.scopes = extractScopes claims := by
  unfold principalFromClaims at h
  split at h
  · cases h
  · cases h
    exact ⟨rfl, rfl⟩

/-! ## The two gates -/

theorem hasScopes_identity_iff {claims : Map} {principal : AuthPrincipal}
    (hprincipal : principalFromClaims claims = .ok principal) {required : List String} :
    principal.identity.hasScopes required = true ↔
      ∀ r ∈ required, r ∈ scopeWords claims ∨ r ∈ scpStrings claims := by
  rw [Identity.hasScopes_iff, identity_eq, grantedScopes_bearer,
    (principalFromClaims_ok hprincipal).1]
  simp only [List.mem_append]

/-- The transport's gate asks for no less than the tool's. -/
theorem hasScopes_identity_of_hasScopes {claims : Map} {principal : AuthPrincipal}
    (hprincipal : principalFromClaims claims = .ok principal) {required : List String}
    (h : principal.hasScopes required = true) : principal.identity.hasScopes required = true := by
  rw [AuthPrincipal.hasScopes_iff, (principalFromClaims_ok hprincipal).2, extractScopes_eq] at h
  rw [hasScopes_identity_iff hprincipal]
  intro r hr
  have hgranted := h r hr
  split at hgranted
  · exact .inl hgranted
  · exact .inr hgranted

/-- The transport's gate is the tool's where `scope` is no string. -/
theorem hasScopes_of_no_scope {claims : Map} {principal : AuthPrincipal}
    (hprincipal : principalFromClaims claims = .ok principal)
    (hscope : ((claims.get "scope").bind Value.asStr).isSome = false) {required : List String}
    (h : principal.identity.hasScopes required = true) : principal.hasScopes required = true := by
  have hwords : scopeWords claims = [] := by
    unfold scopeWords
    rw [Option.isSome_eq_false_iff, Option.isNone_iff_eq_none] at hscope
    rw [hscope]
    rfl
  rw [hasScopes_identity_iff hprincipal, hwords] at h
  rw [AuthPrincipal.hasScopes_iff, (principalFromClaims_ok hprincipal).2, extractScopes_eq,
    if_neg (by simp [hscope])]
  intro r hr
  rcases h r hr with hnil | hscp
  · cases hnil
  · exact hscp

/-- **Where the scope checks agree**: on a principal's claims and some required
scopes, unless `scope` is a string that lacks one of them, which is one of `scp`'s,
while all of them are in one claim or the other; and so on every requirement, if
and only if a `scope` that is a string has all of `scp`'s. -/
theorem scope_checks_agree_iff (claims : Map) (principal : AuthPrincipal)
    (hprincipal : principalFromClaims claims = .ok principal) :
    (∀ required, principal.hasScopes required = principal.identity.hasScopes required ↔
      ¬ (((claims.get "scope").bind Value.asStr).isSome = true ∧
        (∃ r ∈ required, r ∉ scopeWords claims) ∧
        ∀ r ∈ required, r ∈ scopeWords claims ∨ r ∈ scpStrings claims)) ∧
    ((∀ required, principal.hasScopes required = principal.identity.hasScopes required) ↔
      (((claims.get "scope").bind Value.asStr).isSome = true →
        ∀ r ∈ scpStrings claims, r ∈ scopeWords claims)) := by
  have hscopes : principal.scopes = if ((claims.get "scope").bind Value.asStr).isSome then
      scopeWords claims else scpStrings claims := by
    rw [(principalFromClaims_ok hprincipal).2, extractScopes_eq]
  have hpoint : ∀ required,
      principal.hasScopes required = principal.identity.hasScopes required ↔
        ¬ (((claims.get "scope").bind Value.asStr).isSome = true ∧
          (∃ r ∈ required, r ∉ scopeWords claims) ∧
          ∀ r ∈ required, r ∈ scopeWords claims ∨ r ∈ scpStrings claims) := by
    intro required
    rw [Bool.eq_iff_iff]
    constructor
    · rintro hagree ⟨hscope, ⟨r, hr, hmissing⟩, hboth⟩
      have hallowed := hagree.mpr ((hasScopes_identity_iff hprincipal).mpr hboth)
      rw [AuthPrincipal.hasScopes_iff, hscopes, if_pos hscope] at hallowed
      exact hmissing (hallowed r hr)
    · intro hcond
      refine ⟨hasScopes_identity_of_hasScopes hprincipal, ?_⟩
      intro hidentity
      by_cases hscope : ((claims.get "scope").bind Value.asStr).isSome = true
      · rw [AuthPrincipal.hasScopes_iff, hscopes, if_pos hscope]
        intro r hr
        by_contra hmissing
        exact hcond ⟨hscope, ⟨r, hr, hmissing⟩, (hasScopes_identity_iff hprincipal).mp hidentity⟩
      · exact hasScopes_of_no_scope hprincipal (Bool.eq_false_iff.mpr hscope) hidentity
  refine ⟨hpoint, ?_⟩
  constructor
  · intro hagree hscope r hr
    by_contra hmissing
    refine (hpoint [r]).mp (hagree [r]) ⟨hscope, ⟨r, List.mem_singleton_self r, hmissing⟩, ?_⟩
    intro r' hr'
    rw [List.mem_singleton] at hr'
    exact .inr (hr' ▸ hr)
  · intro hcond required
    rw [hpoint]
    rintro ⟨hscope, ⟨r, hr, hmissing⟩, hboth⟩
    rcases hboth r hr with hword | hscp
    · exact hmissing hword
    · exact hmissing (hcond hscope r hscp)

/-- A token with one scope in each claim. -/
def splitClaims : Map :=
  [("sub", .string "alice"), ("scope", .string "mcp:use"), ("scp", .array [.string "admin"])]

def splitPrincipal : AuthPrincipal :=
  { subject := "alice", scopes := ["mcp:use"], claims := splitClaims }

/-- The checks agree on what `scope` grants. -/
theorem checks_agree_on_scope :
    splitPrincipal.hasScopes ["mcp:use"] = splitPrincipal.identity.hasScopes ["mcp:use"] := by
  refine ((scope_checks_agree_iff splitClaims splitPrincipal (by decide)).1 ["mcp:use"]).mpr ?_
  decide

/-- What only `scp` grants passes at the tool and not at the door. -/
theorem checks_differ_on_scp :
    principalFromClaims splitClaims = .ok splitPrincipal ∧
      splitPrincipal.hasScopes ["admin"] = false ∧
      splitPrincipal.identity.hasScopes ["admin"] = true := by
  decide

end TurboMcp.Auth
