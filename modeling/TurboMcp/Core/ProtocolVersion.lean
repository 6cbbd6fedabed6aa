import Mathlib.Data.List.Basic

/-!
# Protocol versions

The draft is a channel, not a dated version: its wire string is the one the
schema currently calls its latest.
-/

namespace TurboMcp.Core

inductive ProtocolVersion
  | v2024_11_05
  | v2025_03_26
  | v2025_06_18
  | v2025_11_25
  | draft
  | unknown (s : String)
  deriving DecidableEq, Repr, Inhabited

namespace ProtocolVersion

def asStr : ProtocolVersion → String
  | v2024_11_05 => "2024-11-05"
  | v2025_03_26 => "2025-03-26"
  | v2025_06_18 => "2025-06-18"
  | v2025_11_25 => "2025-11-25"
  | draft => "2026-07-28"
  | unknown s => s

/-- Unrecognized strings become `unknown`, never an error. -/
def fromWire (s : String) : ProtocolVersion :=
  if s = "2024-11-05" then v2024_11_05
  else if s = "2025-03-26" then v2025_03_26
  else if s = "2025-06-18" then v2025_06_18
  else if s = "2025-11-25" then v2025_11_25
  else if s = "2026-07-28" then draft
  else unknown s

/-- `ProtocolVersion::SUPPORTED`. -/
def supported : List ProtocolVersion := [v2025_11_25, draft]

end ProtocolVersion

end TurboMcp.Core
