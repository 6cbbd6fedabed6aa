import TurboMcp.Core.Error
import TurboMcp.Core.Serde
import TurboMcp.Lib.Base64Url

/-!
# Signed request states

What a handler keeps for a retry travels through the client, and is signed on
the way out: `v1.<payload>.<tag>`, where the payload binds the method, the
authenticated subject and an expiry next to the data.  On the way in the tag
has to be the payload's, and the payload has to be for this method, this
subject and this time.
-/

namespace TurboMcp.Server

open TurboMcp.Core TurboMcp.Lib

/-- What signing uses: HMAC-SHA256 under the signer's key, and `serde_json`. -/
structure StateSigner where
  mac : List UInt8 → List UInt8
  toVec : Value → List UInt8
  fromSlice : List UInt8 → Option Value

namespace StateSigner

/-- Cap on the serialized payload. -/
def maxStateBytes : Nat := 32 * 1024

/-- How long an issued state stays redeemable, in seconds. -/
def stateTtl : Nat := 10 * 60

/-- The protected payload. -/
def payload (method : String) (subject : Option String) (expires : Nat) (data : Value) : Value :=
  .object [("m", .string method), ("sub", (subject.map Value.string).getD .null),
    ("exp", .int expires), ("d", data)]

def tokenOf (payload tag : List UInt8) : String :=
  "v1." ++ String.ofList (Base64Url.encode payload) ++ "." ++
    String.ofList (Base64Url.encode tag)

/-- `StateSigner::sign` at the Unix time `now`. -/
def sign (sg : StateSigner) (now : Nat) (method : String) (subject : Option String)
    (data : Value) : Except McpError String :=
  let payload := sg.toVec (payload method subject (now + stateTtl) data)
  if payload.length > maxStateBytes then
    .error (.invalidParams
      ("request state exceeds the " ++ toString maxStateBytes ++ "-byte limit"))
  else .ok (tokenOf payload (sg.mac payload))

/-- The error says nothing about which check failed. -/
def rejected : McpError := .invalidParams "requestState failed verification"

/-- The text before the first dot, and after it. -/
def cutAtDot (chars : List Char) : Option (List Char × List Char) :=
  match chars.dropWhile (· ≠ '.') with
  | [] => none
  | _ :: rest => some (chars.takeWhile (· ≠ '.'), rest)

/-- The payload and the tag a token carries: `splitn(3, '.')`, the version, and
the two decoded parts. -/
def carried (token : String) : Option (List UInt8 × List UInt8) := do
  let (version, rest) ← cutAtDot token.toList
  let (payload, tag) ← cutAtDot rest
  if version = ['v', '1'] then
    let payload ← Base64Url.decode payload
    let tag ← Base64Url.decode tag
    some (payload, tag)
  else none

/-- `StateSigner::verify` at the Unix time `now`. -/
def verify (sg : StateSigner) (now : Nat) (method : String) (subject : Option String)
    (token : String) : Except McpError Value :=
  if token.utf8ByteSize > 2 * maxStateBytes then .error rejected
  else
    match carried token with
    | none => .error rejected
    | some (payload, tag) =>
        if sg.mac payload ≠ tag then .error rejected
        else
          match sg.fromSlice payload with
          | none => .error rejected
          | some parsed =>
              if (parsed.get "m").bind Value.asStr ≠ some method then .error rejected
              else if (parsed.get "sub").bind Value.asStr ≠ subject then .error rejected
              else if ((parsed.get "exp").bind Value.asU64).getD 0 < now then .error rejected
              else .ok ((parsed.get "d").getD .null)

/-! ## Tokens -/

theorem cutAtDot_append {head rest : List Char} (h : ∀ c ∈ head, c ≠ '.') :
    cutAtDot (head ++ '.' :: rest) = some (head, rest) := by
  unfold cutAtDot
  rw [List.takeWhile_append_of_pos (by simpa using h),
    List.dropWhile_append_of_pos (by simpa using h)]
  simp

theorem toList_tokenOf (payload tag : List UInt8) :
    (tokenOf payload tag).toList =
      ['v', '1'] ++ '.' :: (Base64Url.encode payload ++ '.' :: Base64Url.encode tag) := by
  unfold tokenOf
  simp

theorem carried_tokenOf (payload tag : List UInt8) :
    carried (tokenOf payload tag) = some (payload, tag) := by
  have hversion : ∀ c ∈ ['v', '1'], c ≠ '.' := by simp
  have hpayload : ∀ c ∈ Base64Url.encode payload, c ≠ '.' :=
    fun c hc => (Base64Url.plain_of_mem_encode hc).2
  unfold carried
  rw [toList_tokenOf, cutAtDot_append hversion]
  simp [cutAtDot_append hpayload, Base64Url.decode_encode]

theorem utf8ByteSize_of_ascii {chars : List Char} (h : ∀ c ∈ chars, c.toNat < 128) :
    (String.ofList chars).utf8ByteSize = chars.length := by
  induction chars with
  | nil => rfl
  | cons c chars ih =>
      have hc : c.val ≤ 0x7f := UInt32.le_iff_toNat_le.mpr (by
        have hc : c.val.toNat < 128 := h c List.mem_cons_self
        simpa using Nat.le_of_lt_succ hc)
      have hsize : c.utf8Size = 1 := by simp [Char.utf8Size, hc]
      rw [← List.singleton_append, String.ofList_append, String.utf8ByteSize_append,
        ih fun d hd => h d (List.mem_cons_of_mem _ hd), List.length_append,
        List.length_singleton, ← hsize]
      exact congrArg (· + chars.length) String.utf8ByteSize_singleton

/-- A token that was signed is short enough to be verified. -/
theorem utf8ByteSize_tokenOf {payload tag : List UInt8} (hpayload : payload.length ≤ maxStateBytes)
    (htag : tag.length = 32) : (tokenOf payload tag).utf8ByteSize ≤ 2 * maxStateBytes := by
  have hascii {bytes : List UInt8} : ∀ c ∈ Base64Url.encode bytes, c.toNat < 128 :=
    fun c hc => (Base64Url.plain_of_mem_encode hc).1
  have hversion : "v1.".utf8ByteSize = 3 := by decide
  have hdot : ".".utf8ByteSize = 1 := by decide
  unfold tokenOf
  rw [String.utf8ByteSize_append, String.utf8ByteSize_append, String.utf8ByteSize_append,
    utf8ByteSize_of_ascii hascii, utf8ByteSize_of_ascii hascii, Base64Url.length_encode,
    Base64Url.length_encode, htag, hversion, hdot]
  unfold maxStateBytes at hpayload ⊢
  omega

/-! ## Signing and verifying -/

/-- A call of `sign`. -/
structure Issue where
  now : Nat
  method : String
  subject : Option String
  data : Value

variable {sg : StateSigner}

/-- The payload that the call signs. -/
def Issue.payload (i : Issue) : Value :=
  StateSigner.payload i.method i.subject (i.now + stateTtl) i.data

/-- `serde_json` reads back what it wrote of the payload. -/
def Faithful (sg : StateSigner) (i : Issue) : Prop :=
  sg.fromSlice (sg.toVec i.payload) = some i.payload

/-- Whose tag is the payload's MAC carries a payload that one of these calls
signed. -/
def Unforged (sg : StateSigner) (issued : List Issue) (token : String) : Prop :=
  ∀ payload tag, carried token = some (payload, tag) → sg.mac payload = tag →
    ∃ i ∈ issued, sg.toVec i.payload = payload ∧
      ∃ token', sg.sign i.now i.method i.subject i.data = .ok token'

theorem sign_eq_ok {i : Issue} {token : String}
    (h : sg.sign i.now i.method i.subject i.data = .ok token) :
    (sg.toVec i.payload).length ≤ maxStateBytes ∧
      token = tokenOf (sg.toVec i.payload) (sg.mac (sg.toVec i.payload)) := by
  unfold sign at h
  dsimp only at h
  split at h
  · cases h
  · rename_i hfits
    exact ⟨Nat.le_of_not_gt hfits, (Except.ok.inj h).symm⟩

theorem get_payload (i : Issue) :
    (i.payload.get "m").bind Value.asStr = some i.method ∧
    (i.payload.get "sub").bind Value.asStr = i.subject ∧
    (i.payload.get "exp").bind Value.asU64 = some (i.now + stateTtl) ∧
    i.payload.get "d" = some i.data := by
  obtain ⟨now, method, subject, data⟩ := i
  refine ⟨rfl, ?_, ?_, rfl⟩
  · rcases subject with _ | subject
    · rfl
    · rfl
  · show (if (0 : Int) ≤ (now + stateTtl : Nat) then _ else none) = _
    rw [if_pos (Int.natCast_nonneg _)]
    rfl

/-- What a payload that was read back is checked for. -/
theorem verify_of_carried {i : Issue} {token : String} (hjson : sg.Faithful i)
    (hshort : token.utf8ByteSize ≤ 2 * maxStateBytes)
    (hcarried : carried token = some (sg.toVec i.payload, sg.mac (sg.toVec i.payload)))
    (now : Nat) (method : String) (subject : Option String) :
    sg.verify now method subject token =
      if i.method = method ∧ i.subject = subject ∧ now ≤ i.now + stateTtl then .ok i.data
      else .error rejected := by
  obtain ⟨hm, hsub, hexp, hd⟩ := get_payload i
  unfold Faithful at hjson
  unfold verify
  rw [if_neg (Nat.not_lt.mpr hshort), hcarried]
  dsimp only
  rw [if_neg (not_not.mpr rfl), hjson]
  dsimp only
  rw [hm, hsub, hexp, hd, Option.getD_some, Option.getD_some]
  by_cases hmethod : i.method = method
  · rw [if_neg (not_not.mpr (congrArg some hmethod))]
    by_cases hsubject : i.subject = subject
    · rw [if_neg (not_not.mpr hsubject)]
      by_cases htime : now ≤ i.now + stateTtl
      · rw [if_neg (Nat.not_lt.mpr htime), if_pos ⟨hmethod, hsubject, htime⟩]
      · rw [if_pos (Nat.lt_of_not_le htime), if_neg fun h => htime h.2.2]
    · rw [if_pos hsubject, if_neg fun h => hsubject h.2.1]
  · rw [if_pos fun h => hmethod (Option.some.inj h), if_neg fun h => hmethod h.1]

/-- What a verification that succeeds has seen. -/
theorem carried_of_verify {now : Nat} {method : String} {subject : Option String}
    {token : String} {data : Value} (h : sg.verify now method subject token = .ok data) :
    token.utf8ByteSize ≤ 2 * maxStateBytes ∧
      ∃ payload tag, carried token = some (payload, tag) ∧ sg.mac payload = tag := by
  unfold verify at h
  split at h
  · cases h
  · rename_i hshort
    refine ⟨Nat.le_of_not_gt hshort, ?_⟩
    split at h
    · cases h
    · rename_i payload tag hcarried
      split at h
      · cases h
      · rename_i hmac
        exact ⟨payload, tag, hcarried, not_not.mp hmac⟩

/-- **Signing round-trips and binds**: what was signed is returned to the same
method and subject up to its expiry; and whatever is verified was signed, for
the method and the subject it is verified for, no longer ago than a state is
redeemable. -/
theorem signed_states (sg : StateSigner) (issued : List Issue)
    (hmac : ∀ bytes, (sg.mac bytes).length = 32) (hjson : ∀ i ∈ issued, sg.Faithful i) :
    (∀ i ∈ issued, ∀ token, sg.sign i.now i.method i.subject i.data = .ok token →
      ∀ now ≤ i.now + stateTtl, sg.verify now i.method i.subject token = .ok i.data) ∧
    ∀ token, sg.Unforged issued token → ∀ now method subject data,
      sg.verify now method subject token = .ok data →
      ∃ i ∈ issued, i.method = method ∧ i.subject = subject ∧ i.data = data ∧
        now ≤ i.now + stateTtl ∧ (carried token).map Prod.fst = some (sg.toVec i.payload) ∧
        ∃ token', sg.sign i.now i.method i.subject i.data = .ok token' := by
  refine ⟨?_, ?_⟩
  · intro i hi token hsign now hnow
    obtain ⟨hfits, rfl⟩ := sign_eq_ok hsign
    rw [verify_of_carried (hjson i hi) (utf8ByteSize_tokenOf hfits (hmac _)) (carried_tokenOf _ _),
      if_pos ⟨rfl, rfl, hnow⟩]
  · intro token hunforged now method subject data h
    obtain ⟨hshort, payload, tag, hcarried, htag⟩ := carried_of_verify h
    obtain ⟨i, hi, rfl, hissued⟩ := hunforged payload tag hcarried htag
    subst htag
    rw [verify_of_carried (hjson i hi) hshort hcarried] at h
    split at h
    · rename_i hbound
      obtain ⟨hmethod, hsubject, hnow⟩ := hbound
      refine ⟨i, hi, hmethod, hsubject, Except.ok.inj h, hnow, ?_, hissued⟩
      rw [hcarried, Option.map_some]
    · cases h

/-- The payload `{"m":"tools/call","sub":null,"exp":600,"d":null}`. -/
def sampleText : List UInt8 :=
  [123, 34, 109, 34, 58, 34, 116, 111, 111, 108, 115, 47, 99, 97, 108, 108, 34, 44, 34, 115, 117,
    98, 34, 58, 110, 117, 108, 108, 44, 34, 101, 120, 112, 34, 58, 54, 48, 48, 44, 34, 100, 34, 58,
    110, 117, 108, 108, 125]

/-- Its HMAC-SHA256 under the key of 32 zero bytes. -/
def sampleTag : List UInt8 :=
  [249, 37, 141, 231, 114, 4, 133, 221, 188, 79, 19, 174, 57, 16, 209, 238, 125, 221, 43, 153, 6,
    14, 243, 202, 50, 38, 155, 63, 57, 134, 250, 186]

def sampleIssue : Issue := { now := 0, method := "tools/call", subject := none, data := .null }

/-- A signer that knows one payload. -/
def sampleSigner : StateSigner where
  mac bytes := if bytes = sampleText then sampleTag else List.replicate 32 0
  toVec v := if v = sampleIssue.payload then sampleText else []
  fromSlice bytes := if bytes = sampleText then some sampleIssue.payload else none

def sampleToken : String :=
  "v1.eyJtIjoidG9vbHMvY2FsbCIsInN1YiI6bnVsbCwiZXhwIjo2MDAsImQiOm51bGx9." ++
    "-SWN53IEhd28TxOuORDR7n3dK5kGDvPKMiabPzmG-ro"

theorem signed_states_sample :
    sampleSigner.verify 600 "tools/call" none sampleToken = .ok .null ∧
    sampleSigner.verify 600 "tools/call" (some "alice") sampleToken = .error rejected ∧
    sampleSigner.Unforged [sampleIssue] sampleToken := by
  have hmac : ∀ bytes, (sampleSigner.mac bytes).length = 32 := by
    intro bytes
    show (if bytes = sampleText then sampleTag else List.replicate 32 0).length = 32
    split
    · rfl
    · rfl
  have hjson : ∀ i ∈ [sampleIssue], sampleSigner.Faithful i := by
    intro i hi
    obtain rfl := List.mem_singleton.mp hi
    unfold Faithful
    decide
  obtain ⟨hround, -⟩ := signed_states sampleSigner [sampleIssue] hmac hjson
  have hsign : sampleSigner.sign 0 "tools/call" none .null = .ok sampleToken := by decide
  refine ⟨hround sampleIssue (List.mem_singleton_self _) sampleToken hsign 600 (by decide),
    by decide, ?_⟩
  intro payload tag hcarried _
  rw [show carried sampleToken = some (sampleText, sampleTag) by decide] at hcarried
  obtain ⟨rfl, -⟩ := Prod.ext_iff.mp (Option.some.inj hcarried)
  exact ⟨sampleIssue, List.mem_singleton_self _, by decide, sampleToken, hsign⟩

end StateSigner

end TurboMcp.Server
