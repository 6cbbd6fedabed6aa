import Mathlib.Data.List.Nodup
import Mathlib.Data.List.TakeWhile
import TurboMcp.Auth.Challenge

/-!
# Challenges and their text

A `WWW-Authenticate` value lists challenges, each a scheme with parameters, the
values tokens or quoted strings.  The parser looks for the scheme wherever it
may stand in the text, and knows fewer names than the grammar has; it finds the
first Bearer challenge and its parameters unless one of the two is in the way.
-/

namespace TurboMcp.Auth

open TurboMcp.Core TurboMcp.Lib TurboMcp.Service.McpHeaders

/-! ## The grammar -/

structure Token where
  chars : List Char
  ne_nil : chars ≠ []
  tokenChars : ∀ c ∈ chars, isTokenChar c = true

namespace Token

def lower (t : Token) : List Char := t.chars.map Char.toLower

end Token

/-- What a quoted string is made of: text, or an escaped character. -/
inductive QuotedItem
  | text (c : Char) (hquote : c ≠ '"') (hescape : c ≠ '\\')
  | pair (c : Char)

namespace QuotedItem

def char : QuotedItem → Char
  | text c _ _ => c
  | pair c => c

def render : QuotedItem → List Char
  | text c _ _ => [c]
  | pair c => ['\\', c]

end QuotedItem

inductive ParamValue
  | token (t : Token)
  | quoted (items : List QuotedItem)

namespace ParamValue

/-- The text that is meant. -/
def chars : ParamValue → List Char
  | token t => t.chars
  | quoted items => items.map QuotedItem.char

def render : ParamValue → List Char
  | token t => t.chars
  | quoted items => '"' :: (items.flatMap QuotedItem.render ++ ['"'])

end ParamValue

structure AuthParam where
  name : Token
  value : ParamValue

namespace AuthParam

/-- The name, the case of which does not matter. -/
def key (p : AuthParam) : String := String.ofList p.name.lower

def text (p : AuthParam) : String := String.ofList p.value.chars

def render (p : AuthParam) : List Char := p.name.chars ++ '=' :: p.value.render

end AuthParam

/-- A challenge; no parameter occurs twice in it. -/
structure AuthChallenge where
  scheme : Token
  params : List AuthParam
  nodup : (params.map AuthParam.key).Nodup

def separator : List Char := [',', ' ']

namespace AuthChallenge

def isBearer (c : AuthChallenge) : Prop := c.scheme.lower = "bearer".toList

/-- The value of a parameter. -/
def param (c : AuthChallenge) (key : String) : Option String :=
  (c.params.find? fun p => p.key = key).map AuthParam.text

def render (c : AuthChallenge) : List Char :=
  c.scheme.chars ++
    if c.params.isEmpty then [] else ' ' :: separator.intercalate (c.params.map AuthParam.render)

/-- The challenge as its parameters have it. -/
def meant (c : AuthChallenge) : BearerChallenge where
  resourceMetadata := c.param "resource_metadata"
  scope := c.param "scope"
  error := c.param "error"
  errorDescription := c.param "error_description"

end AuthChallenge

/-- A list of challenges as one header value. -/
def renderChallenges (cs : List AuthChallenge) : String :=
  String.ofList (separator.intercalate (cs.map AuthChallenge.render))

/-! ## Token characters -/

theorem ne_of_tokenChar {c d : Char} (hc : isTokenChar c = true) (hd : isTokenChar d = false) :
    c ≠ d := by
  rintro rfl
  rw [hc] at hd
  cases hd

theorem tokenChar_range {c : Char} (hc : isTokenChar c = true) : 33 ≤ c.toNat ∧ c.toNat ≤ 126 := by
  unfold isTokenChar at hc
  rw [Bool.or_eq_true] at hc
  rcases hc with halnum | hpunct
  · have hcases : ((decide (c.val ≥ 65 ∧ c.val ≤ 90) ||
        decide (c.val ≥ 97) && decide (c.val ≤ 122)) ||
        decide (c.val ≥ 48) && decide (c.val ≤ 57)) = true := halnum
    simp only [Bool.or_eq_true, Bool.and_eq_true, decide_eq_true_eq, ge_iff_le,
      UInt32.le_iff_toNat_le] at hcases
    have hval : c.val.toNat = c.toNat := rfl
    simp at hcases
    omega
  · have hall : ∀ d ∈ "!#$%&'*+-.^_`|~".toList, 33 ≤ d.toNat ∧ d.toNat ≤ 126 := by decide
    exact hall c (by simpa using hpunct)

theorem isWhitespace_of_tokenChar {c : Char} (hc : isTokenChar c = true) :
    isWhitespace c = false := by
  have hrange := tokenChar_range hc
  unfold isWhitespace
  simp
  omega

theorem delimits_of_tokenChar {c : Char} (hc : isTokenChar c = true) : delimits c = false := by
  unfold delimits
  simp [ne_of_tokenChar hc (d := ' ') (by decide), ne_of_tokenChar hc (d := ',') (by decide),
    ne_of_tokenChar hc (d := '\t') (by decide)]

theorem tokenChar_toLower {c : Char} (hc : isTokenChar c = true) :
    isTokenChar c.toLower = true := by
  have hall : ∀ n < 127, isTokenChar (Char.ofNat n) = true →
      isTokenChar (Char.ofNat n).toLower = true := by decide
  have hc' := hall c.toNat (by have := tokenChar_range hc; omega)
  rw [Char.ofNat_toNat] at hc'
  exact hc' hc

theorem Token.tokenChars_lower (t : Token) : ∀ c ∈ t.lower, isTokenChar c = true := by
  intro c hc
  obtain ⟨d, hd, rfl⟩ := List.mem_map.mp hc
  exact tokenChar_toLower (t.tokenChars d hd)

/-- What follows a token is no part of it. -/
def EndsToken (tail : List Char) : Prop := ∀ c, tail.head? = some c → isTokenChar c = false

/-! ## Where the scheme can be found -/

def bearer : List Char := "bearer".toList

/-- `bearer` does not stand alone from anywhere in a part of a lowercased text. -/
def NoBearer (prev : Option Char) (w tail : List Char) : Prop :=
  Quiet delimits isBlank bearer prev w tail

theorem noBearer_nil (prev : Option Char) (tail : List Char) : NoBearer prev [] tail := trivial

theorem noBearer_append (prev : Option Char) (u w tail : List Char) :
    NoBearer prev (u ++ w) tail ↔
      NoBearer prev u (w ++ tail) ∧ NoBearer (lastOr prev u) w tail :=
  quiet_append ..

theorem bearer_not_delimits : ∀ c ∈ bearer, delimits c = false := by decide

/-- Of the texts that start with a token only `bearer` itself does. -/
theorem token_eq_bearer {prev : Option Char} {w tail : List Char}
    (hw : ∀ c ∈ w, isTokenChar c = true) (htail : EndsToken tail)
    (h : aloneAt delimits isBlank bearer prev (w ++ tail) = true) :
    w = bearer ∧ ∀ c, tail.head? = some c → isBlank c = true := by
  unfold aloneAt at h
  simp only [Bool.and_eq_true, List.isPrefixOf_iff_prefix] at h
  obtain ⟨⟨-, rest, hrest⟩, hafter⟩ := h
  rw [← hrest, List.drop_left] at hafter
  have hblank : ∀ c, rest.head? = some c → isBlank c = true := by
    intro c hc
    rw [hc] at hafter
    exact hafter
  have hends : EndsToken rest := by
    intro c hc
    have hc' := hblank c hc
    unfold isBlank at hc'
    simp only [Bool.or_eq_true, decide_eq_true_eq] at hc'
    rcases hc' with rfl | rfl
    · decide
    · decide
  have hbearer : ∀ c ∈ bearer, isTokenChar c = true := by decide
  have htake := congrArg (List.takeWhile isTokenChar) hrest
  rw [takeWhile_run hbearer hends, takeWhile_run hw htail] at htake
  refine ⟨htake.symm, ?_⟩
  rw [htake, List.append_cancel_left_eq] at hrest
  rw [← hrest]
  exact hblank

/-- A token is quiet if it is not `bearer` between what may stand around it. -/
theorem noBearer_token {prev : Option Char} {w tail : List Char}
    (hw : ∀ c ∈ w, isTokenChar c = true)
    (halone : aloneAt delimits isBlank bearer prev (w ++ tail) = false) :
    NoBearer prev w tail := by
  rcases w with _ | ⟨c, w⟩
  · trivial
  · rw [List.forall_mem_cons] at hw
    refine ⟨halone, ?_⟩
    exact quiet_of_forall (delimits_of_tokenChar hw.1)
      (fun d hd => delimits_of_tokenChar (hw.2 d hd)) tail

/-- Nothing that `bearer` does not start with. -/
theorem noBearer_char {prev : Option Char} {c : Char} (hc : c ≠ 'b') (tail : List Char) :
    NoBearer prev [c] tail := by
  refine ⟨?_, trivial⟩
  have hleading : bearer.isPrefixOf (c :: ([] ++ tail)) = false := by
    show ('b' == c && _) = false
    simp [Ne.symm hc]
  unfold aloneAt
  rw [hleading, Bool.and_false, Bool.false_and]

/-! ### Quoted strings -/

/-- A quoted string as it is written, in lower case. -/
def quotedText (items : List QuotedItem) : List Char :=
  (items.flatMap QuotedItem.render).map Char.toLower

/-- The text holds `bearer` where it could be taken for a scheme. -/
def HidesBearer (text : List Char) : Prop :=
  ∃ u d e v, text = u ++ d :: (bearer ++ e :: v) ∧ delimits d = true ∧ isBlank e = true

/-- Between its quotes a text is quiet unless it hides `bearer`. -/
theorem noBearer_quoted (text tail : List Char) :
    NoBearer (some '"') text ('"' :: tail) ↔ ¬ HidesBearer text := by
  rw [NoBearer, quiet_iff]
  constructor
  · rintro hquiet ⟨u, d, e, v, rfl, hd, he⟩
    have halone := hquiet (u ++ [d]) 'b' ("earer".toList ++ e :: v) (by simp [bearer])
    have hlast : lastOr (some '"') (u ++ [d]) = some d := by simp [lastOr]
    rw [hlast] at halone
    simp [aloneAt, hd, he, bearer] at halone
  · intro hhides u c v heq
    rw [← Bool.not_eq_true]
    intro halone
    unfold aloneAt at halone
    simp only [Bool.and_eq_true, List.isPrefixOf_iff_prefix] at halone
    obtain ⟨⟨hbefore, rest, hrest⟩, hafter⟩ := halone
    rw [← hrest, List.drop_left] at hafter
    -- the opening quote is none of the characters a scheme may follow
    obtain ⟨u', d, rfl, hd⟩ : ∃ u' d, u = u' ++ [d] ∧ delimits d = true := by
      rcases List.eq_nil_or_concat u with rfl | ⟨u', d, rfl⟩
      · exact absurd hbefore (by decide)
      · refine ⟨u', d, List.concat_eq_append, ?_⟩
        simpa [lastOr] using hbefore
    rw [← List.cons_append] at hrest
    rcases List.append_eq_append_iff.mp hrest with ⟨w, hw, htail⟩ | ⟨w, hw, htail⟩
    · -- inside the quotes, where it can only end at the closing one
      rcases w with _ | ⟨e, w⟩
      · rw [htail] at hafter
        exact absurd hafter (show ¬ isBlank '"' = true by decide)
      · rw [htail] at hafter
        refine hhides ⟨u', d, e, w, ?_, hd, hafter⟩
        rw [heq, hw]
        simp
    · rcases w with _ | ⟨q, w⟩
      · rw [List.nil_append] at htail
        rw [← htail] at hafter
        exact absurd hafter (show ¬ isBlank '"' = true by decide)
      · rw [List.cons_append, List.cons.injEq] at htail
        have hquote : '"' ∈ bearer := by
          rw [hw, htail.1]
          simp
        exact absurd hquote (by decide)

/-! ### Parameters and challenges -/

/-- The value is a quoted string that hides `bearer`. -/
def ParamValue.HidesBearer : ParamValue → Prop
  | token _ => False
  | quoted items => Auth.HidesBearer (quotedText items)

/-- A parameter's value hides `bearer`. -/
def AuthChallenge.HidesBearer (c : AuthChallenge) : Prop :=
  ∃ p ∈ c.params, p.value.HidesBearer

/-- A text in lower case. -/
def lowered (l : List Char) : List Char := l.map Char.toLower

@[simp] theorem lowered_append (l l' : List Char) : lowered (l ++ l') = lowered l ++ lowered l' :=
  List.map_append

theorem noBearer_value (v : ParamValue) (tail : List Char) :
    NoBearer (some '=') (lowered v.render) tail ↔ ¬ v.HidesBearer := by
  cases v with
  | token t =>
      refine iff_of_true ?_ not_false
      apply quiet_of_forall (by decide)
      intro c hc
      exact delimits_of_tokenChar (t.tokenChars_lower c hc)
  | quoted items =>
      have htext : lowered (ParamValue.quoted items).render = ['"'] ++ (quotedText items ++ ['"']) := by
        simp [ParamValue.render, quotedText, lowered]
      rw [htext, noBearer_append, noBearer_append]
      show _ ↔ ¬ Auth.HidesBearer (quotedText items)
      rw [← noBearer_quoted _ tail]
      constructor
      · exact fun h => h.2.1
      · exact fun h => ⟨noBearer_char (by decide) _, h, noBearer_char (by decide) _⟩

theorem noBearer_param (prev : Option Char) (p : AuthParam) (tail : List Char) :
    NoBearer prev (lowered p.render) tail ↔ ¬ p.value.HidesBearer := by
  have htext : lowered p.render = p.name.lower ++ (['='] ++ lowered p.value.render) := by
    simp [AuthParam.render, Token.lower, lowered]
  have hname : NoBearer prev p.name.lower ('=' :: (lowered p.value.render ++ tail)) := by
    apply noBearer_token p.name.tokenChars_lower
    rw [← Bool.not_eq_true]
    intro halone
    have hends : EndsToken ('=' :: (lowered p.value.render ++ tail)) := by
      rintro c ⟨⟩
      decide
    have hblank := (token_eq_bearer p.name.tokenChars_lower hends halone).2 '=' rfl
    exact absurd hblank (by decide)
  rw [htext, noBearer_append, noBearer_append, ← noBearer_value p.value tail]
  have hlast : lastOr (lastOr prev p.name.lower) ['='] = some '=' := rfl
  rw [hlast]
  constructor
  · exact fun h => h.2.2
  · exact fun h => ⟨hname, noBearer_char (by decide) _, h⟩

theorem noBearer_separator (prev : Option Char) (tail : List Char) :
    NoBearer prev (lowered separator) tail := by
  show NoBearer prev ([','] ++ [' ']) tail
  rw [noBearer_append]
  exact ⟨noBearer_char (by decide) _, noBearer_char (by decide) _⟩

theorem noBearer_params (prev : Option Char) (ps : List AuthParam) (tail : List Char) :
    NoBearer prev (lowered (ps.flatMap fun p => separator ++ p.render)) tail ↔
      ¬ ∃ p ∈ ps, p.value.HidesBearer := by
  induction ps generalizing prev with
  | nil => simp [lowered, noBearer_nil]
  | cons p ps ih =>
      rw [List.flatMap_cons, lowered_append, lowered_append, noBearer_append, noBearer_append,
        noBearer_param, ih, List.exists_mem_cons_iff, not_or]
      have hseparator := noBearer_separator prev
        (lowered p.render ++ (lowered (ps.flatMap fun p => separator ++ p.render) ++ tail))
      constructor
      · rintro ⟨⟨-, hp⟩, hps⟩
        exact ⟨hp, hps⟩
      · rintro ⟨hp, hps⟩
        exact ⟨⟨hseparator, hp⟩, hps⟩

/-- The text after a challenge's scheme. -/
def AuthChallenge.paramsText (c : AuthChallenge) : List Char :=
  match c.params with
  | [] => []
  | p :: ps => ' ' :: (p.render ++ ps.flatMap fun p => separator ++ p.render)

theorem AuthChallenge.render_eq (c : AuthChallenge) : c.render = c.scheme.chars ++ c.paramsText := by
  unfold render paramsText
  rcases c.params with _ | ⟨p, ps⟩
  · rfl
  · simp [intercalate_cons, List.flatMap_map]

theorem noBearer_paramsText (prev : Option Char) (c : AuthChallenge) (tail : List Char) :
    NoBearer prev (lowered c.paramsText) tail ↔ ¬ c.HidesBearer := by
  unfold AuthChallenge.paramsText AuthChallenge.HidesBearer
  rcases c.params with _ | ⟨p, ps⟩
  · simp [lowered, noBearer_nil]
  · show NoBearer prev (lowered ([' '] ++ (p.render ++ _))) tail ↔ _
    rw [lowered_append, lowered_append, noBearer_append, noBearer_append, noBearer_param,
      noBearer_params, List.exists_mem_cons_iff, not_or]
    exact and_iff_right (noBearer_char (by decide) _)

theorem endsToken_paramsText (c : AuthChallenge) {tail : List Char} (htail : EndsToken tail) :
    EndsToken (lowered c.paramsText ++ tail) := by
  unfold AuthChallenge.paramsText
  rcases c.params with _ | ⟨p, ps⟩
  · exact htail
  · rintro d ⟨⟩
    decide

/-- Outside quoted strings another challenge is quiet. -/
theorem noBearer_challenge (prev : Option Char) {c : AuthChallenge} (hc : ¬ c.isBearer)
    {tail : List Char} (htail : EndsToken tail) :
    NoBearer prev (lowered c.render) tail ↔ ¬ c.HidesBearer := by
  have hscheme : NoBearer prev c.scheme.lower (lowered c.paramsText ++ tail) := by
    apply noBearer_token c.scheme.tokenChars_lower
    rw [← Bool.not_eq_true]
    intro halone
    exact hc (token_eq_bearer c.scheme.tokenChars_lower (endsToken_paramsText c htail) halone).1
  rw [c.render_eq, lowered_append, noBearer_append, noBearer_paramsText]
  exact and_iff_right hscheme

theorem noBearer_challenges (prev : Option Char) {cs : List AuthChallenge}
    (hcs : ∀ c ∈ cs, ¬ c.isBearer) (tail : List Char) :
    NoBearer prev (lowered (cs.flatMap fun c => c.render ++ separator)) tail ↔
      ∀ c ∈ cs, ¬ c.HidesBearer := by
  induction cs generalizing prev with
  | nil => simp [lowered, noBearer_nil]
  | cons c cs ih =>
      rw [List.forall_mem_cons] at hcs
      have hends : EndsToken (lowered separator ++
          (lowered (cs.flatMap fun c => c.render ++ separator) ++ tail)) := by
        rintro d ⟨⟩
        decide
      rw [List.flatMap_cons, List.append_assoc, lowered_append, lowered_append, noBearer_append,
        noBearer_append, noBearer_challenge prev hcs.1 (by simpa using hends), ih _ hcs.2,
        List.forall_mem_cons]
      constructor
      · rintro ⟨hc, -, hrest⟩
        exact ⟨hc, hrest⟩
      · rintro ⟨hc, hrest⟩
        exact ⟨hc, noBearer_separator _ _, hrest⟩

/-! ## What is read from the scheme on -/

theorem readQuoted_render (items : List QuotedItem) (tail : List Char) :
    readQuoted (items.flatMap QuotedItem.render ++ '"' :: tail) =
      (items.map QuotedItem.char, tail) := by
  induction items with
  | nil => rfl
  | cons item items ih =>
      rw [List.flatMap_cons, List.append_assoc]
      cases item with
      | text c hquote hescape =>
          show readQuoted (c :: (items.flatMap QuotedItem.render ++ '"' :: tail)) = _
          rw [readQuoted, ih]
          · rfl
          · exact hquote
          · rintro rfl
            exact absurd rfl hescape
          · rintro _ _ rfl
            exact absurd rfl hescape
      | pair c =>
          show readQuoted ('\\' :: c :: (items.flatMap QuotedItem.render ++ '"' :: tail)) = _
          rw [readQuoted, ih]
          · rfl

/-- The parser knows every character of the name. -/
def AuthParam.Usual (p : AuthParam) : Prop := ∀ c ∈ p.name.chars, isParamNameChar c = true

instance (p : AuthParam) : Decidable p.Usual :=
  inferInstanceAs (Decidable (∀ c ∈ p.name.chars, isParamNameChar c = true))

/-- The parameter as it is read. -/
def AuthParam.given (p : AuthParam) : String × String := (String.ofList p.name.chars, p.text)

/-- What follows a parameter is no part of it. -/
def EndsParam (tail : List Char) : Prop := ∀ c, tail.head? = some c → delimits c = true

theorem dropWhile_token {f : Char → Bool} {t : Token} (hf : ∀ c ∈ t.chars, f c = false)
    (tail : List Char) : (t.chars ++ tail).dropWhile f = t.chars ++ tail := by
  obtain ⟨c, cs, hcs⟩ := List.exists_cons_of_ne_nil t.ne_nil
  rw [hcs, List.cons_append]
  exact List.dropWhile_cons_of_neg (by simp [hf c (by rw [hcs]; exact List.mem_cons_self)])

theorem dropWhile_whitespace_token (t : Token) (tail : List Char) :
    (t.chars ++ tail).dropWhile isWhitespace = t.chars ++ tail :=
  dropWhile_token (fun c hc => isWhitespace_of_tokenChar (t.tokenChars c hc)) tail

/-- Delimiters before a parameter are passed over. -/
theorem nextParam_delimited (seps : List Char) (hseps : ∀ c ∈ seps, delimits c = true)
    (l : List Char) : nextParam (seps ++ l) = nextParam l := by
  unfold nextParam
  rw [List.dropWhile_append_of_pos hseps]

theorem readValue_render (v : ParamValue) {tail : List Char} (htail : EndsParam tail) :
    readValue ((v.render ++ tail).dropWhile isWhitespace) = (v.chars, tail) := by
  cases v with
  | token t =>
      have hvalue : ∀ c ∈ t.chars, (!delimits c) = true := by
        intro c hc
        rw [delimits_of_tokenChar (t.tokenChars c hc)]
        rfl
      have hend : ∀ c, tail.head? = some c → (!delimits c) = false := by
        intro c hc
        rw [htail c hc]
        rfl
      show readValue ((t.chars ++ tail).dropWhile isWhitespace) = (t.chars, tail)
      rw [dropWhile_whitespace_token]
      have htake := takeWhile_run hvalue hend
      have hdrop := dropWhile_run hvalue hend
      obtain ⟨c, cs, hcs⟩ := List.exists_cons_of_ne_nil t.ne_nil
      have hquote : c ≠ '"' := ne_of_tokenChar
        (t.tokenChars c (by rw [hcs]; exact List.mem_cons_self)) (by decide)
      rw [hcs, List.cons_append] at htake hdrop ⊢
      rw [readValue, htake, hdrop]
      rintro _ heq
      exact hquote (List.cons.inj heq).1
  | quoted items =>
      show readValue (('"' :: (items.flatMap QuotedItem.render ++ ['"'] ++ tail)).dropWhile
        isWhitespace) = _
      rw [List.dropWhile_cons_of_neg (by decide), readValue, List.append_assoc]
      exact readQuoted_render items tail

theorem nextParam_usual {p : AuthParam} (hp : p.Usual) {tail : List Char} (htail : EndsParam tail) :
    nextParam (p.render ++ tail) = some (p.given, tail) := by
  have htext : p.render ++ tail = p.name.chars ++ '=' :: (p.value.render ++ tail) := by
    simp [AuthParam.render]
  have hstop : ∀ c, ('=' :: (p.value.render ++ tail)).head? = some c → isParamNameChar c = false := by
    rintro c ⟨⟩
    decide
  have hdelimits := dropWhile_token (f := delimits)
    (fun c hc => delimits_of_tokenChar (p.name.tokenChars c hc)) ('=' :: (p.value.render ++ tail))
  have hname : p.name.chars.isEmpty = false := by simp [p.name.ne_nil]
  unfold nextParam
  simp only [htext, hdelimits, takeWhile_run hp hstop, dropWhile_run hp hstop, hname,
    Bool.false_eq_true, if_false]
  rw [List.dropWhile_cons_of_neg (by decide)]
  simp only [readValue_render p.value htail]
  rfl

/-- A token that no `=` follows is not a parameter. -/
theorem nextParam_eq_none {t : Token} {tail : List Char}
    (h : ∀ l, ((t.chars ++ tail).dropWhile isParamNameChar).dropWhile isWhitespace ≠ '=' :: l) :
    nextParam (t.chars ++ tail) = none := by
  unfold nextParam
  simp only [dropWhile_token (fun c hc => delimits_of_tokenChar (t.tokenChars c hc)) tail]
  split
  · rfl
  · rfl

/-- Nothing is read from a token with a character that the parser does not know. -/
theorem nextParam_unusual {t : Token} (ht : ¬ ∀ c ∈ t.chars, isParamNameChar c = true)
    (tail : List Char) : nextParam (t.chars ++ tail) = none := by
  apply nextParam_eq_none
  intro l heq
  cases hdrop : t.chars.dropWhile isParamNameChar with
  | nil => exact ht (List.dropWhile_eq_nil_iff.mp hdrop)
  | cons d ds =>
      have hd : d ∈ t.chars :=
        (List.dropWhile_sublist isParamNameChar).subset (hdrop ▸ List.mem_cons_self)
      have htoken : isTokenChar d = true := t.tokenChars d hd
      rw [List.dropWhile_append, hdrop] at heq
      simp only [List.isEmpty_cons, Bool.false_eq_true, if_false, List.cons_append] at heq
      rw [List.dropWhile_cons_of_neg (by simp [isWhitespace_of_tokenChar htoken])] at heq
      exact ne_of_tokenChar htoken (d := '=') (by decide) (List.cons.inj heq).1

/-- The text of further challenges. -/
def furtherText (cs : List AuthChallenge) : List Char := cs.flatMap fun c => separator ++ c.render

theorem endsParam_furtherText (cs : List AuthChallenge) : EndsParam (furtherText cs) := by
  rcases cs with _ | ⟨c, cs⟩
  · rintro d ⟨⟩
  · rintro d ⟨⟩
    decide

/-- The next challenge is not a parameter. -/
theorem nextParam_furtherText (cs : List AuthChallenge) : nextParam (furtherText cs) = none := by
  rcases cs with _ | ⟨c, cs⟩
  · rfl
  · have htext : furtherText (c :: cs) = separator ++ (c.scheme.chars ++
        (c.paramsText ++ furtherText cs)) := by
      simp [furtherText, c.render_eq]
    rw [htext, nextParam_delimited separator (by decide)]
    by_cases hscheme : ∀ ch ∈ c.scheme.chars, isParamNameChar ch = true
    · apply nextParam_eq_none
      intro l
      unfold AuthChallenge.paramsText
      rcases c.params with _ | ⟨p, ps⟩
      · -- the end, or a comma
        have hstop : ∀ d, (furtherText cs).head? = some d → isParamNameChar d = false := by
          rcases cs with _ | ⟨c', cs⟩
          · rintro d ⟨⟩
          · rintro d ⟨⟩
            decide
        rw [List.nil_append, dropWhile_run hscheme hstop]
        rcases cs with _ | ⟨c', cs⟩
        · intro heq
          cases heq
        · show (',' :: _).dropWhile isWhitespace ≠ _
          rw [List.dropWhile_cons_of_neg (by decide)]
          intro heq
          exact absurd (List.cons.inj heq).1 (by decide)
      · -- the name of its first parameter
        rw [List.cons_append, dropWhile_run hscheme (by rintro d ⟨⟩; decide),
          List.dropWhile_cons_of_pos (by decide), AuthParam.render, List.append_assoc,
          List.append_assoc, dropWhile_whitespace_token]
        obtain ⟨d, ds, hds⟩ := List.exists_cons_of_ne_nil p.name.ne_nil
        have hd : isTokenChar d = true :=
          p.name.tokenChars d (by rw [hds]; exact List.mem_cons_self)
        rw [hds, List.cons_append]
        intro heq
        exact ne_of_tokenChar hd (d := '=') (by decide) (List.cons.inj heq).1
    · exact nextParam_unusual hscheme _

/-- **What is read**: the parameters up to the first with an unusual name. -/
theorem paramsFrom_render (ps : List AuthParam) (cs : List AuthChallenge) {rounds : Nat}
    (hrounds : ps.length < rounds) :
    paramsFrom rounds ((ps.flatMap fun p => separator ++ p.render) ++ furtherText cs) =
      (ps.takeWhile fun p => p.Usual).map AuthParam.given := by
  induction ps generalizing rounds with
  | nil =>
      rcases rounds with _ | rounds
      · rfl
      · show paramsFrom (rounds + 1) (furtherText cs) = []
        rw [paramsFrom, nextParam_furtherText]
  | cons p ps ih =>
      rcases rounds with _ | rounds
      · exact absurd hrounds (Nat.not_lt_zero _)
      · have htext : ((p :: ps).flatMap fun p => separator ++ p.render) ++ furtherText cs =
            separator ++ (p.render ++
              ((ps.flatMap fun p => separator ++ p.render) ++ furtherText cs)) := by
          simp
        rw [paramsFrom, htext, nextParam_delimited separator (by decide)]
        by_cases hp : p.Usual
        · have hend : EndsParam ((ps.flatMap fun p => separator ++ p.render) ++ furtherText cs) := by
            rcases ps with _ | ⟨p', ps⟩
            · exact endsParam_furtherText cs
            · rintro d ⟨⟩
              decide
          rw [nextParam_usual hp hend, List.takeWhile_cons_of_pos (by simpa using hp),
            List.map_cons]
          simp only
          rw [ih (Nat.lt_of_succ_lt_succ hrounds)]
        · rw [AuthParam.render, List.append_assoc, nextParam_unusual hp,
            List.takeWhile_cons_of_neg (by simpa using hp)]
          rfl

/-! ## The parameters of a challenge -/

/-- The value of a parameter among some. -/
def valueIn (ps : List AuthParam) (key : String) : Option String :=
  (ps.find? fun p => p.key = key).map AuthParam.text

theorem asciiLower_given (p : AuthParam) : asciiLower p.given.1 = p.key := by
  unfold asciiLower AuthParam.given AuthParam.key Token.lower
  rw [String.toList_ofList]

theorem valueIn_eq_some_iff {ps : List AuthParam} (hnodup : (ps.map AuthParam.key).Nodup)
    {key value : String} :
    valueIn ps key = some value ↔ ∃ p ∈ ps, p.key = key ∧ p.text = value := by
  unfold valueIn
  rw [Option.map_eq_some_iff]
  constructor
  · rintro ⟨p, hfind, htext⟩
    exact ⟨p, List.mem_of_find?_eq_some hfind, by simpa using List.find?_some hfind, htext⟩
  · rintro ⟨p, hp, hkey, htext⟩
    refine ⟨p, ?_, htext⟩
    cases hfind : ps.find? fun p => p.key = key with
    | none => exact absurd hkey (by simpa using List.find?_eq_none.mp hfind p hp)
    | some p' =>
        have hkey' : p'.key = key := by simpa using List.find?_some hfind
        rw [List.inj_on_of_nodup_map hnodup (List.mem_of_find?_eq_some hfind) hp
          (hkey'.trans hkey.symm)]

/-- The map in between changes nothing. -/
theorem lastValue_sorted {ps : List AuthParam} (hnodup : (ps.map AuthParam.key).Nodup)
    (key : String) :
    BearerChallenge.lastValue (Entries.sorted (ps.map AuthParam.given)) key = valueIn ps key := by
  have hlower : (ps.map AuthParam.given).map (fun param => asciiLower param.1) =
      ps.map AuthParam.key := by
    rw [List.map_map]
    exact List.map_congr_left fun p _ => asciiLower_given p
  have hnames : ((ps.map AuthParam.given).map Prod.fst).Nodup := by
    rw [← hlower] at hnodup
    exact List.Nodup.of_map asciiLower (by rwa [List.map_map])
  have hperm := Entries.perm_sorted hnames
  have hsorted : ((Entries.sorted (ps.map AuthParam.given)).map fun param =>
      asciiLower param.1).Nodup := by
    rw [(hperm.map _).nodup_iff, hlower]
    exact hnodup
  apply Option.ext
  intro value
  rw [BearerChallenge.lastValue_eq_some_iff hsorted, valueIn_eq_some_iff hnodup]
  constructor
  · rintro ⟨param, hparam, hkey, hvalue⟩
    obtain ⟨p, hp, rfl⟩ := List.mem_map.mp (hperm.mem_iff.mp hparam)
    exact ⟨p, hp, (asciiLower_given p).symm.trans hkey, hvalue⟩
  · rintro ⟨p, hp, hkey, hvalue⟩
    exact ⟨p.given, hperm.mem_iff.mpr (List.mem_map_of_mem hp), (asciiLower_given p).trans hkey,
      hvalue⟩

namespace AuthChallenge

theorem length_le_paramsText (c : AuthChallenge) : c.params.length ≤ c.paramsText.length := by
  have hfurther : ∀ ps : List AuthParam,
      ps.length ≤ (ps.flatMap fun p => separator ++ p.render).length := by
    intro ps
    induction ps with
    | nil => exact Nat.le_refl _
    | cons p ps ih =>
        rw [List.flatMap_cons, List.length_append, List.length_append, List.length_cons]
        have hseparator : separator.length = 2 := rfl
        omega
  unfold paramsText
  rcases c.params with _ | ⟨p, ps⟩
  · exact Nat.le_refl _
  · have hps := hfurther ps
    simp only [List.length_cons, List.length_append]
    omega

/-- The parameters as the parser reads them, whatever challenges follow. -/
theorem parseAuthParams_eq (c : AuthChallenge) (cs : List AuthChallenge) :
    parseAuthParams (c.paramsText ++ furtherText cs) =
      Entries.sorted ((c.params.takeWhile fun p => p.Usual).map AuthParam.given) := by
  have hrounds : c.params.length < (c.paramsText ++ furtherText cs).length + 1 := by
    have hle := c.length_le_paramsText
    rw [List.length_append]
    omega
  unfold parseAuthParams
  rw [← paramsFrom_render c.params cs hrounds]
  -- one blank before the first parameter does as well as a separator
  unfold paramsText
  rcases c.params with _ | ⟨p, ps⟩
  · rfl
  · have hblank := nextParam_delimited [' '] (by decide)
      (p.render ++ ((ps.flatMap fun p => separator ++ p.render) ++ furtherText cs))
    have hseparator := nextParam_delimited separator (by decide)
      (p.render ++ ((ps.flatMap fun p => separator ++ p.render) ++ furtherText cs))
    simp only [List.flatMap_cons, List.append_assoc, List.cons_append, List.nil_append,
      paramsFrom] at hblank hseparator ⊢
    rw [hblank, hseparator]

/-- No parameter that counts comes after one with an unusual name. -/
def NamesKnown (c : AuthChallenge) : Prop :=
  ∀ p ∈ c.params.dropWhile fun p => p.Usual, p.key ∉ BearerChallenge.recognised

instance (c : AuthChallenge) : Decidable c.NamesKnown :=
  inferInstanceAs (Decidable (∀ p ∈ c.params.dropWhile fun p => p.Usual,
    p.key ∉ BearerChallenge.recognised))

theorem read_eq_meant_iff (c : AuthChallenge) :
    BearerChallenge.ofParams (valueIn (c.params.takeWhile fun p => p.Usual)) = c.meant ↔
      c.NamesKnown := by
  have hmeant : c.meant = BearerChallenge.ofParams (valueIn c.params) := rfl
  have hsplit : ∀ key, valueIn c.params key =
      (valueIn (c.params.takeWhile fun p => p.Usual) key).or
        (valueIn (c.params.dropWhile fun p => p.Usual) key) := by
    intro key
    conv_lhs => rw [← List.takeWhile_append_dropWhile (p := fun p : AuthParam => p.Usual)
      (l := c.params)]
    unfold valueIn
    rw [List.find?_append, Option.map_or]
  have hnodup := c.nodup
  rw [← List.takeWhile_append_dropWhile (p := fun p : AuthParam => p.Usual) (l := c.params),
    List.map_append, List.nodup_append] at hnodup
  obtain ⟨-, hdrop, hdisjoint⟩ := hnodup
  rw [hmeant, BearerChallenge.ofParams_eq_iff]
  constructor
  · intro heq p hp hkey
    have hlost : valueIn (c.params.dropWhile fun p => p.Usual) p.key = some p.text :=
      (valueIn_eq_some_iff hdrop).mpr ⟨p, hp, rfl, rfl⟩
    have hnone : valueIn (c.params.takeWhile fun p => p.Usual) p.key = none := by
      unfold valueIn
      rw [Option.map_eq_none_iff, List.find?_eq_none]
      intro p' hp'
      simpa using hdisjoint p'.key (List.mem_map_of_mem hp') p.key (List.mem_map_of_mem hp)
    have hsame := heq p.key hkey
    rw [hsplit, hnone, hlost] at hsame
    cases hsame
  · intro hknown key hkey
    have hnone : valueIn (c.params.dropWhile fun p => p.Usual) key = none := by
      unfold valueIn
      rw [Option.map_eq_none_iff, List.find?_eq_none]
      intro p hp
      simp only [decide_eq_true_eq]
      rintro rfl
      exact hknown p hp hkey
    rw [hsplit, hnone, Option.or_none]

end AuthChallenge

/-! ## The challenge that is found -/

instance (c : AuthChallenge) : Decidable c.isBearer :=
  inferInstanceAs (Decidable (c.scheme.lower = "bearer".toList))

/-- What the parser is to make of a list: its first Bearer challenge. -/
def meantBy (cs : List AuthChallenge) : Option BearerChallenge :=
  (cs.find? fun c => c.isBearer).map AuthChallenge.meant

/-- The challenges before the first Bearer one. -/
def othersFirst (cs : List AuthChallenge) : List AuthChallenge := cs.takeWhile fun c => ¬ c.isBearer

/-- The first Bearer challenge, and what comes after it. -/
def fromBearer (cs : List AuthChallenge) : List AuthChallenge := cs.dropWhile fun c => ¬ c.isBearer

/-- Nothing looks like a Bearer challenge before the first one does: no quoted
string before it hides `bearer`, and no comma follows its scheme. -/
structure Findable (cs : List AuthChallenge) : Prop where
  others : ∀ c ∈ othersFirst cs, ¬ c.HidesBearer
  scheme : ∀ c after, fromBearer cs = c :: after → c.params ≠ [] ∨ after = []

theorem toList_renderChallenges (cs : List AuthChallenge) :
    (renderChallenges cs).toList = separator.intercalate (cs.map AuthChallenge.render) :=
  String.toList_ofList

theorem bearer_ne_nil : bearer ≠ [] := by decide

/-- Without a Bearer challenge none is found, unless one is made up. -/
theorem parse_eq_none_iff {cs : List AuthChallenge} (hcs : ∀ c ∈ cs, ¬ c.isBearer) :
    parseBearerChallenge (renderChallenges cs) = none ↔ ∀ c ∈ cs, ¬ c.HidesBearer := by
  unfold parseBearerChallenge
  rw [Option.map_eq_none_iff, toList_renderChallenges]
  show searchAlone delimits isBlank bearer (lowered _) = none ↔ _
  rw [searchAlone_eq_none_iff bearer_ne_nil bearer_not_delimits]
  rcases List.eq_nil_or_concat cs with rfl | ⟨others, last, rfl⟩
  · exact iff_of_true trivial (by simp)
  · rw [List.concat_eq_append, List.forall_mem_append, List.forall_mem_singleton] at hcs ⊢
    rw [List.map_append, List.map_singleton, intercalate_append_cons, List.flatMap_nil,
      List.append_nil, List.flatMap_map, lowered_append]
    show NoBearer none _ [] ↔ _
    rw [noBearer_append, noBearer_challenges none hcs.1,
      noBearer_challenge _ hcs.2 (by rintro d ⟨⟩)]

/-- The first Bearer challenge is found, and read as far as its names are known. -/
theorem parse_of_findable (others after : List AuthChallenge) (c : AuthChallenge)
    (hothers : ∀ c ∈ others, ¬ c.isBearer) (hhides : ∀ c ∈ others, ¬ c.HidesBearer)
    (hc : c.isBearer) (hscheme : c.params ≠ [] ∨ after = []) :
    parseBearerChallenge (renderChallenges (others ++ c :: after)) =
      some (.ofParams (valueIn (c.params.takeWhile fun p => p.Usual))) := by
  have htext : (renderChallenges (others ++ c :: after)).toList =
      (others.flatMap fun c => c.render ++ separator) ++
        (c.scheme.chars ++ (c.paramsText ++ furtherText after)) := by
    rw [toList_renderChallenges, List.map_append, List.map_cons, intercalate_append_cons,
      c.render_eq, List.flatMap_map, List.flatMap_map, List.append_assoc]
    rfl
  have hlower : lowered c.scheme.chars = bearer := hc
  have hlength : c.scheme.chars.length = "bearer".length := by
    have hlen := congrArg List.length hlower
    rw [lowered, List.length_map] at hlen
    exact hlen
  have halone : aloneAt delimits isBlank bearer
      (lowered (others.flatMap fun c => c.render ++ separator)).getLast?
      (bearer ++ lowered (c.paramsText ++ furtherText after)) = true := by
    have hbefore : (lowered (others.flatMap fun c => c.render ++ separator)).getLast?.all delimits =
        true := by
      rcases List.eq_nil_or_concat others with rfl | ⟨others', last, rfl⟩
      · rfl
      · rw [List.concat_eq_append, List.flatMap_append, List.flatMap_singleton, ← List.append_assoc,
          lowered_append, List.getLast?_append]
        rfl
    have hafter : (lowered (c.paramsText ++ furtherText after)).head?.all isBlank = true := by
      unfold AuthChallenge.paramsText
      rcases hparams : c.params with _ | ⟨p, ps⟩
      · rw [hscheme.resolve_left (by simp [hparams])]
        rfl
      · rfl
    unfold aloneAt
    rw [hbefore, List.drop_left, hafter, Bool.and_true, Bool.true_and, List.isPrefixOf_iff_prefix]
    exact List.prefix_append _ _
  have hfound : findScheme (lowered (renderChallenges (others ++ c :: after)).toList)
      "bearer".toList = some (others.flatMap fun c => c.render ++ separator).length := by
    rw [htext, lowered_append, lowered_append, hlower]
    have hsearch := searchAlone_of_quiet bearer_ne_nil bearer_not_delimits
      ((noBearer_challenges none hothers
        (bearer ++ lowered (c.paramsText ++ furtherText after))).mpr hhides) halone
    rw [lowered, List.length_map] at hsearch
    exact hsearch
  have hrest : (renderChallenges (others ++ c :: after)).toList.drop
      ((others.flatMap fun c => c.render ++ separator).length + "bearer".length) =
        c.paramsText ++ furtherText after := by
    rw [htext, ← hlength, ← List.length_append, ← List.append_assoc, List.drop_left]
  have hread : ((c.params.takeWhile fun p => p.Usual).map AuthParam.key).Nodup :=
    c.nodup.sublist ((List.takeWhile_sublist _).map _)
  unfold parseBearerChallenge
  change (findScheme (lowered (renderChallenges (others ++ c :: after)).toList)
    "bearer".toList).map _ = _
  rw [hfound, Option.map_some, hrest, c.parseAuthParams_eq, BearerChallenge.foldl_set]
  congr 2
  funext key
  exact lastValue_sorted hread key

/-- The names of the first Bearer challenge are known as far as they count. -/
def NamesKnown (cs : List AuthChallenge) : Prop :=
  ∀ c after, fromBearer cs = c :: after → c.NamesKnown

/-- **What is read of a list of challenges**: where nothing looks like a Bearer
challenge before the first one does, exactly what is meant, if and only if none of
its parameters that count comes after one with an unusual name.  Where there is no
Bearer challenge none is read, if and only if nothing looks like one. -/
theorem parse_renderChallenges_iff (cs : List AuthChallenge) :
    (Findable cs →
      (parseBearerChallenge (renderChallenges cs) = meantBy cs ↔ NamesKnown cs)) ∧
    ((∀ c ∈ cs, ¬ c.isBearer) →
      (parseBearerChallenge (renderChallenges cs) = meantBy cs ↔ Findable cs)) := by
  have hsplit : cs = othersFirst cs ++ fromBearer cs := List.takeWhile_append_dropWhile.symm
  have hothers : ∀ c ∈ othersFirst cs, ¬ c.isBearer := by
    intro c hc
    simpa using List.mem_takeWhile_imp hc
  have hnone : (∀ c ∈ cs, ¬ c.isBearer) → meantBy cs = none ∧ othersFirst cs = cs := by
    intro hcs
    refine ⟨?_, ?_⟩
    · unfold meantBy
      rw [Option.map_eq_none_iff, List.find?_eq_none]
      simpa using hcs
    · exact List.takeWhile_eq_self_iff.mpr (by simpa using hcs)
  refine ⟨?_, ?_⟩
  · intro hfindable
    rcases hfrom : fromBearer cs with _ | ⟨c, after⟩
    · -- there is none
      have hcs : ∀ c ∈ cs, ¬ c.isBearer := by
        rw [hsplit, hfrom, List.append_nil]
        exact hothers
      rw [(hnone hcs).1, parse_eq_none_iff hcs]
      refine iff_of_true ?_ ?_
      · rw [← (hnone hcs).2]
        exact hfindable.others
      · intro c after heq
        rw [hfrom] at heq
        cases heq
    · have hfind : cs.find? (fun c => c.isBearer) = some c := by
        rw [List.find?_eq_head?_dropWhile_not]
        have hpred : (fun c : AuthChallenge => !decide c.isBearer) =
            fun c : AuthChallenge => decide ¬ c.isBearer := by
          funext c
          exact decide_not.symm
        rw [hpred]
        exact congrArg List.head? hfrom
      have hc : c.isBearer := by simpa using List.find?_some hfind
      have hmeant : meantBy cs = some c.meant := by
        unfold meantBy
        rw [hfind]
        rfl
      have hparse : parseBearerChallenge (renderChallenges cs) =
          some (.ofParams (valueIn (c.params.takeWhile fun p => p.Usual))) := by
        conv_lhs => rw [hsplit, hfrom]
        exact parse_of_findable _ after c hothers hfindable.others hc (hfindable.scheme c after hfrom)
      rw [hparse, hmeant, Option.some.injEq, c.read_eq_meant_iff]
      constructor
      · intro hknown c' after' heq
        rw [hfrom] at heq
        cases heq
        exact hknown
      · exact fun hknown => hknown c after hfrom
  · intro hcs
    rw [(hnone hcs).1, parse_eq_none_iff hcs]
    have hfrom : fromBearer cs = [] := List.dropWhile_eq_nil_iff.mpr (by simpa using hcs)
    constructor
    · intro hhides
      refine ⟨?_, ?_⟩
      · rw [(hnone hcs).2]
        exact hhides
      · intro c after heq
        rw [hfrom] at heq
        cases heq
    · intro hfindable
      rw [← (hnone hcs).2]
      exact hfindable.others

/-! ### Some lists -/

def Token.of (s : String) (hne : s.toList ≠ []) (h : ∀ c ∈ s.toList, isTokenChar c = true) : Token :=
  ⟨s.toList, hne, h⟩

/-- A text as a quoted string, escaped where it has to be. -/
def quotedString (s : String) : ParamValue :=
  .quoted (s.toList.map fun c =>
    if h : c ≠ '"' ∧ c ≠ '\\' then .text c h.1 h.2 else .pair c)

def bearerScheme : Token := .of "Bearer" (by decide) (by decide)

def basicScheme : Token := .of "Basic" (by decide) (by decide)

def scopeParam : AuthParam where
  name := .of "scope" (by decide) (by decide)
  value := quotedString "files:read"

def scopeChallenge : AuthChallenge := ⟨bearerScheme, [scopeParam], by decide⟩

/-- A challenge with one parameter is read. -/
theorem scope_read :
    parseBearerChallenge (renderChallenges [scopeChallenge]) = meantBy [scopeChallenge] := by
  refine ((parse_renderChallenges_iff [scopeChallenge]).1 ⟨?_, ?_⟩).mpr ?_
  · have hnil : othersFirst [scopeChallenge] = [] := rfl
    simp [hnil]
  · intro c after hfrom
    cases hfrom
    exact .inr rfl
  · intro c after hfrom
    cases hfrom
    decide

def realmParam : AuthParam where
  name := .of "realm" (by decide) (by decide)
  value := quotedString "no bearer here"

def dottedParam : AuthParam where
  name := .of "x.y" (by decide) (by decide)
  value := .token (.of "1" (by decide) (by decide))

/-- A challenge is made up from a quoted string, one without parameters goes
missing before another, and a parameter goes missing after an unusual name. -/
theorem challenges_misread :
    parseBearerChallenge (renderChallenges [⟨basicScheme, [realmParam], by decide⟩]) ≠
        meantBy [⟨basicScheme, [realmParam], by decide⟩] ∧
      parseBearerChallenge (renderChallenges
        [⟨bearerScheme, [], by decide⟩, ⟨basicScheme, [scopeParam], by decide⟩]) ≠
        meantBy [⟨bearerScheme, [], by decide⟩, ⟨basicScheme, [scopeParam], by decide⟩] ∧
      parseBearerChallenge (renderChallenges
        [⟨bearerScheme, [dottedParam, scopeParam], by decide⟩]) ≠
        meantBy [⟨bearerScheme, [dottedParam, scopeParam], by decide⟩] := by
  decide

-- what is made up may by chance be what is meant
example : parseBearerChallenge (renderChallenges
    [⟨basicScheme, [realmParam], by decide⟩, ⟨bearerScheme, [], by decide⟩]) =
      meantBy [⟨basicScheme, [realmParam], by decide⟩, ⟨bearerScheme, [], by decide⟩] := by decide

end TurboMcp.Auth
