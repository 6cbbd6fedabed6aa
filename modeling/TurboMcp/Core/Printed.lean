import Mathlib.Algebra.Ring.Nat
import TurboMcp.Core.Frames

/-!
# How long a frame is on the wire

The number of bytes in which `serde_json` prints a value, compactly.  How a float
prints is left open.
-/

namespace TurboMcp.Core

open TurboMcp.Lib

/-- The bytes of one character between quotes. -/
def escapedLength (c : Char) : Nat :=
  if c.toNat ∈ [8, 9, 10, 12, 13, 34, 92] then 2 else if c.toNat < 32 then 6 else c.utf8Size

def quotedLength (s : String) : Nat := (s.toList.map escapedLength).sum + 2

namespace Value

mutual
def printedLength (floatLength : UInt64 → Nat) : Value → Nat
  | null => 4
  | bool b => if b then 4 else 5
  | int n => (toString n).length
  | float bits => floatLength bits
  | string s => quotedLength s
  | array xs => printedItems floatLength xs + 2
  | object m => printedEntries floatLength m + 2

/-- Items and the commas between them. -/
def printedItems (floatLength : UInt64 → Nat) : List Value → Nat
  | [] => 0
  | x :: xs => printedLength floatLength x + (if xs = [] then 0 else 1) +
      printedItems floatLength xs

def printedEntries (floatLength : UInt64 → Nat) : List (String × Value) → Nat
  | [] => 0
  | (key, v) :: m => quotedLength key + 1 + printedLength floatLength v +
      (if m = [] then 0 else 1) + printedEntries floatLength m
end

variable (floatLength : UInt64 → Nat)

theorem printedEntries_of_mem {key : String} {v : Value} {m : Map} (h : (key, v) ∈ m) :
    printedLength floatLength v ≤ printedEntries floatLength m := by
  induction m with
  | nil => cases h
  | cons e m ih =>
      obtain ⟨key', w⟩ := e
      rw [printedEntries]
      rcases List.mem_cons.mp h with he | h
      · cases he
        omega
      · have hle := ih h
        omega

/-- An object is longer than each value in it. -/
theorem printedLength_entry {key : String} {v : Value} {m : Map} (h : (key, v) ∈ m) :
    printedLength floatLength v < printedLength floatLength (object m) := by
  have hle := printedEntries_of_mem floatLength h
  rw [printedLength]
  omega

end Value

/-- A text of `n` letters. -/
def letters (n : Nat) : String := String.ofList (List.replicate n 'x')

theorem quotedLength_letters (n : Nat) : quotedLength (letters n) = n + 2 := by
  have hx : escapedLength 'x' = 1 := by decide
  simp [quotedLength, letters, hx]

/-- A frame is longer than its parameters. -/
theorem printedLength_params (floatLength : UInt64 → Nat) {msg : JsonRpcMessage} {params : Value}
    (h : msg.params = some params) :
    params.printedLength floatLength < msg.encode.printedLength floatLength := by
  cases msg with
  | request r =>
      obtain ⟨jsonrpc, id, method, _⟩ := r
      cases h
      have hmem : ("params", params) ∈ record [("jsonrpc", some (.string jsonrpc)),
          ("id", some id.encode), ("method", some (.string method)), ("params", some params)] := by
        simp [record]
      exact Value.printedLength_entry floatLength hmem
  | notification n =>
      obtain ⟨jsonrpc, method, _⟩ := n
      cases h
      have hmem : ("params", params) ∈ record [("jsonrpc", some (.string jsonrpc)),
          ("method", some (.string method)), ("params", some params)] := by
        simp [record]
      exact Value.printedLength_entry floatLength hmem
  | response r => cases h

end TurboMcp.Core
