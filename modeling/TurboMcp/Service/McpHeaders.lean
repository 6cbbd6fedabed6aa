import TurboMcp.Core.Json
import TurboMcp.Lib.Base64

/-!
# Request-metadata headers

The half of the mirror headers that client and server share: which body field
`Mcp-Name` mirrors, the rendering of arguments, and the value codec.  A value
that cannot stand in a header as it is travels as a Base64 sentinel.
-/

namespace TurboMcp.Service.McpHeaders

open TurboMcp.Core TurboMcp.Lib

/-- The body field `Mcp-Name` mirrors, for the methods that need the header. -/
def nameFieldFor (method : String) : Option String :=
  if method = "tools/call" ∨ method = "prompts/get" then some "name"
  else if method = "resources/read" then some "uri"
  else none

/-! ## Values -/

def isBlank (c : Char) : Bool := c = ' ' || c = '\t'

/-- Visible ASCII or a blank. -/
def isHeaderChar (c : Char) : Bool := (0x21 ≤ c.toNat && c.toNat ≤ 0x7e) || isBlank c

def sentinelStart : List Char := "=?base64?".toList

def sentinelEnd : List Char := "?=".toList

/-- Whether the value can ride in a header as it is. -/
def isHeaderSafe (value : String) : Bool :=
  let chars := value.toList
  if chars.head?.any isBlank || chars.getLast?.any isBlank then false
  else if sentinelStart.isPrefixOf chars && sentinelEnd.isSuffixOf chars then false
  else chars.all isHeaderChar

def sentinel (payload : List Char) : String :=
  String.ofList (sentinelStart ++ (payload ++ sentinelEnd))

def encodeValue (value : String) : String :=
  if isHeaderSafe value then value
  else sentinel (Base64.encode value.toUTF8.data.toList)

/-- What stands between the sentinel's marks. -/
def sentinelPayload (value : String) : Option (List Char) :=
  let chars := value.toList
  if sentinelStart.isPrefixOf chars then
    let rest := chars.drop sentinelStart.length
    if sentinelEnd.isSuffixOf rest then some (rest.take (rest.length - sentinelEnd.length)) else none
  else none

/-- `none` for a malformed sentinel. -/
def decodeValue (value : String) : Option String :=
  match sentinelPayload value with
  | none => some value
  | some payload =>
      (Base64.decode payload).bind fun bytes => String.fromUTF8? (ByteArray.mk bytes.toArray)

def jsSafe : Int := 2 ^ 53 - 1

/-- An argument as a header shows it; only strings, booleans and integers of the
JavaScript safe range have such a form. -/
def renderArgument : Value → Option String
  | .string s => some s
  | .int n => if -jsSafe ≤ n ∧ n ≤ jsSafe then some (toString n) else none
  | .bool b => some (if b then "true" else "false")
  | _ => none

/-! ## Names -/

/-- A `tchar`. -/
def isTokenChar (c : Char) : Bool :=
  c.isAlphanum || "!#$%&'*+-.^_`|~".toList.contains c

def isValidHeaderName (name : String) : Bool := name ≠ "" && name.toList.all isTokenChar

/-- `str::to_ascii_lowercase`. -/
def asciiLower (s : String) : String := String.ofList (s.toList.map Char.toLower)

def eqIgnoreAsciiCase (s t : String) : Bool := asciiLower s = asciiLower t

/-! ## The codec's round trip -/

@[simp] theorem toList_sentinel (payload : List Char) :
    (sentinel payload).toList = sentinelStart ++ (payload ++ sentinelEnd) := String.toList_ofList

theorem sentinelPayload_sentinel (payload : List Char) :
    sentinelPayload (sentinel payload) = some payload := by
  have hstart : sentinelStart.isPrefixOf (sentinelStart ++ (payload ++ sentinelEnd)) = true := by
    rw [List.isPrefixOf_iff_prefix]
    exact List.prefix_append _ _
  have hend : sentinelEnd.isSuffixOf (payload ++ sentinelEnd) = true := by
    rw [List.isSuffixOf_iff_suffix]
    exact List.suffix_append _ _
  unfold sentinelPayload
  simp only [toList_sentinel, hstart, if_true, List.drop_left, hend]
  simp

/-- A sentinel is not header-safe: it must be encoded to stay unambiguous. -/
theorem sentinelPayload_of_safe {value : String} (h : isHeaderSafe value = true) :
    sentinelPayload value = none := by
  unfold isHeaderSafe at h
  simp only at h
  split at h
  · cases h
  · split at h
    · cases h
    · rename_i hmarks
      unfold sentinelPayload
      simp only
      split
      · rename_i hstart
        refine if_neg fun hend => hmarks ?_
        have hsuffix : sentinelEnd.isSuffixOf value.toList = true := by
          rw [List.isSuffixOf_iff_suffix] at hend ⊢
          exact hend.trans (List.drop_suffix _ _)
        simp [hstart, hsuffix]
      · rfl

theorem fromUTF8_toUTF8 (s : String) :
    String.fromUTF8? (ByteArray.mk s.toUTF8.data.toList.toArray) = some s := by
  have hbytes : ByteArray.mk s.toUTF8.data.toList.toArray = s.toByteArray := by simp
  rw [hbytes]
  unfold String.fromUTF8?
  rw [dif_pos s.isValidUTF8]
  rfl

/-- **The codec is faithful**: a value reads back as it was encoded. -/
theorem decodeValue_encodeValue (value : String) :
    decodeValue (encodeValue value) = some value := by
  unfold encodeValue
  split
  · rename_i hsafe
    rw [decodeValue, sentinelPayload_of_safe hsafe]
  · rw [decodeValue, sentinelPayload_sentinel]
    simp only
    rw [Base64.decode_encode]
    exact fromUTF8_toUTF8 value

/-! ## What is written into a header -/

theorem isHeaderChar_of_isBase64Char {c : Char} (h : Base64.isBase64Char c = true) :
    isHeaderChar c = true := by
  have hvisible : 0x21 ≤ c.toNat ∧ c.toNat ≤ 0x7e := by
    simp only [Base64.isBase64Char, Bool.or_eq_true, decide_eq_true_eq] at h
    rcases h with rfl | h
    · decide
    · unfold Base64.value at h
      split at h
      · omega
      · split at h
        · omega
        · split at h
          · omega
          · split at h
            · rename_i hc
              subst hc
              decide
            · split at h
              · rename_i hc
                subst hc
                decide
              · cases h
  simp [isHeaderChar, hvisible]

theorem isHeaderChar_encodeValue {value : String} {c : Char}
    (h : c ∈ (encodeValue value).toList) : isHeaderChar c = true := by
  unfold encodeValue at h
  split at h
  · rename_i hsafe
    unfold isHeaderSafe at hsafe
    simp only at hsafe
    split at hsafe
    · cases hsafe
    · split at hsafe
      · cases hsafe
      · exact List.all_eq_true.mp hsafe c h
  · rw [toList_sentinel, List.mem_append, List.mem_append] at h
    have hall : (sentinelStart ++ sentinelEnd).all isHeaderChar = true := by decide +kernel
    have hmarks := List.all_eq_true.mp hall
    rcases h with h | h | h
    · exact hmarks c (List.mem_append_left _ h)
    · exact isHeaderChar_of_isBase64Char (Base64.isBase64Char_encode h)
    · exact hmarks c (List.mem_append_right _ h)

/-! ### Trimming -/

/-- Nothing to trim at either end. -/
def Trimmed (l : List Char) : Prop :=
  l.head?.any isBlank = false ∧ l.getLast?.any isBlank = false

theorem trimmed_sentinel (payload : List Char) : Trimmed (sentinel payload).toList := by
  have hend : sentinelEnd = ['?'] ++ ['='] := by decide
  rw [toList_sentinel]
  constructor
  · rfl
  · rw [hend, ← List.append_assoc, ← List.append_assoc, List.getLast?_concat]
    rfl

theorem trimmed_encodeValue (value : String) : Trimmed (encodeValue value).toList := by
  unfold encodeValue
  split
  · rename_i hsafe
    unfold isHeaderSafe at hsafe
    simp only at hsafe
    split at hsafe
    · cases hsafe
    · rename_i hblank
      rw [Bool.or_eq_true, not_or, Bool.not_eq_true, Bool.not_eq_true] at hblank
      exact hblank
  · exact trimmed_sentinel _

/-- **Header values**: a value reads back from its header; what stands there is visible
ASCII and blanks inside, so it neither ends a line nor is changed by trimming; and
distinct values stand there as distinct ones. -/
theorem encodeValue_faithful :
    (∀ value, decodeValue (encodeValue value) = some value) ∧
      (∀ value, (∀ c ∈ (encodeValue value).toList, isHeaderChar c = true) ∧
        Trimmed (encodeValue value).toList) ∧
      Function.Injective encodeValue := by
  refine ⟨decodeValue_encodeValue, ?_, ?_⟩
  · intro value
    refine ⟨?_, trimmed_encodeValue value⟩
    intro c hc
    exact isHeaderChar_encodeValue hc
  · intro value value' h
    have hread : some value = some value' := by
      rw [← decodeValue_encodeValue value, h, decodeValue_encodeValue value']
    exact Option.some.inj hread

-- the two marks of the sentinel may overlap in a value, which is encoded all the same
example : encodeValue "=?base64?=" = "=?base64?PT9iYXNlNjQ/PQ==?=" := by decide +kernel

end TurboMcp.Service.McpHeaders
