import TurboMcp.Core.Meta
import TurboMcp.Lib.Text

/-!
# Scopes of an identity

What the per-tool gates ask an identity for.
-/

namespace TurboMcp.Core

open TurboMcp.Lib

namespace Identity

/-- `Identity::claim`. -/
def claim (identity : Identity) (key : String) : Option Value :=
  match identity with
  | .anonymous => none
  | .bearer _ claims => claims.get key

def grantedScopes (identity : Identity) : List String :=
  (match identity.claim "scope" with
    | some (.string s) => splitWhitespace s
    | _ => []) ++
  (match identity.claim "scp" with
    | some (.array arr) => arr.filterMap Value.asStr
    | _ => [])

/-- `Identity::has_scopes`. -/
def hasScopes (identity : Identity) (required : List String) : Bool :=
  if required.isEmpty then true
  else required.all fun r => identity.grantedScopes.any fun g => g = r

theorem hasScopes_iff {identity : Identity} {required : List String} :
    identity.hasScopes required = true ↔ ∀ r ∈ required, r ∈ identity.grantedScopes := by
  unfold hasScopes
  split
  · rename_i hempty
    rw [List.isEmpty_iff.mp hempty]
    simp
  · simp

end Identity

end TurboMcp.Core
