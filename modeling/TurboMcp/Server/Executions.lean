import TurboMcp.Server.Handler

/-!
# Executions of a handler

On the draft a handler runs from the top with the responses of the latest round.  It
either ends, or leaves behind the requests of the ask at which the responses gave out;
what it leaves behind depends only on which of that ask's keys were answered.  So an
execution whose responses answer no key of the first ask is the first execution again.
-/

namespace TurboMcp.Server

open TurboMcp.Core TurboMcp.Lib

variable {N : Type}

/-! ## What an ask leaves behind -/

theorem recordInput_ne_inputRequired {strictKeys : Bool} {collected : Map} {key : String}
    {request : Value} {e : McpError} (h : recordInput strictKeys collected key request = .error e) :
    e ≠ .inputRequired := by
  unfold recordInput at h
  split at h
  · cases h
  · split at h
    · cases h
      exact McpError.noConfusion
    · cases h

theorem keys_recordInput {strictKeys : Bool} {collected collected' : Map} {key : String}
    {request : Value} (h : recordInput strictKeys collected key request = .ok collected')
    (k : String) :
    k ∈ collected'.map Prod.fst ↔ k = key ∨ k ∈ collected.map Prod.fst := by
  have hinserted : collected' = Map.insertSorted collected key request := by
    unfold recordInput at h
    split at h
    · exact (Except.ok.inj h).symm
    · split at h
      · cases h
      · exact (Except.ok.inj h).symm
  rw [hinserted]
  exact Entries.mem_keys_insertSorted collected key request k

section

variable {responses responses' : Map} {strictKeys : Bool}

/-- Only which keys are answered matters. -/
theorem recordMissing_congr {requests : List (String × Value)} (collected : Map)
    (h : ∀ key ∈ requests.map Prod.fst,
      Map.containsKey responses key = Map.containsKey responses' key) :
    recordMissing responses strictKeys requests collected =
      recordMissing responses' strictKeys requests collected := by
  induction requests generalizing collected with
  | nil => rfl
  | cons r requests ih =>
      obtain ⟨key, request⟩ := r
      have hrest : ∀ k ∈ requests.map Prod.fst,
          Map.containsKey responses k = Map.containsKey responses' k := by
        intro k hk
        exact h k (List.mem_cons_of_mem _ hk)
      unfold recordMissing
      rw [h key List.mem_cons_self]
      split
      · exact ih collected hrest
      · cases recordInput strictKeys collected key request with
        | error e => rfl
        | ok collected' => exact ih collected' hrest

/-- The keys that are left behind are the unanswered ones. -/
theorem keys_recordMissing {requests : List (String × Value)} {collected collected' : Map}
    (h : recordMissing responses strictKeys requests collected = (.inputRequired, collected'))
    (key : String) :
    key ∈ collected'.map Prod.fst ↔ key ∈ collected.map Prod.fst ∨
      (key ∈ requests.map Prod.fst ∧ Map.containsKey responses key = false) := by
  induction requests generalizing collected with
  | nil =>
      obtain rfl : collected = collected' := congrArg Prod.snd h
      simp
  | cons r requests ih =>
      obtain ⟨k, request⟩ := r
      unfold recordMissing at h
      rw [List.map_cons, List.mem_cons]
      split at h
      · rename_i hheld
        rw [ih h]
        apply or_congr_right
        constructor
        · rintro ⟨hmem, hmissing⟩
          exact ⟨.inr hmem, hmissing⟩
        · rintro ⟨rfl | hmem, hmissing⟩
          · rw [hheld] at hmissing
            cases hmissing
          · exact ⟨hmem, hmissing⟩
      · rename_i hfree
        rw [Bool.not_eq_true] at hfree
        rcases hrecord : recordInput strictKeys collected k request with e | recorded
        · rw [hrecord] at h
          exact absurd (congrArg Prod.fst h) (recordInput_ne_inputRequired hrecord)
        · rw [hrecord] at h
          rw [ih h, keys_recordInput hrecord]
          constructor
          · rintro ((rfl | hmem) | ⟨hmem, hmissing⟩)
            · exact .inr ⟨.inl rfl, hfree⟩
            · exact .inl hmem
            · exact .inr ⟨.inr hmem, hmissing⟩
          · rintro (hmem | ⟨rfl | hmem, hmissing⟩)
            · exact .inl (.inr hmem)
            · exact .inl (.inl rfl)
            · exact .inr ⟨hmem, hmissing⟩

theorem containsKey_eq_false_iff {m : Map} {key : String} :
    Map.containsKey m key = false ↔ Map.get m key = none := by
  unfold Map.containsKey
  rw [← Bool.not_eq_true, Option.not_isSome_iff_eq_none]

/-- **What an ask leaves behind**: one that is not ready ends the execution with the
unanswered ones of its requests. -/
theorem answerMrtr_eq {handle : ClientHandle} (hm : handle.mode.available = true) {texts : Texts}
    {a : Ask} (h : a.ready texts responses handle.clientCapabilities = none) :
    answerMrtr handle texts responses strictKeys Map.empty a =
      (.error (recordMissing responses strictKeys (a.requests handle.legacy) Map.empty).1,
        (recordMissing responses strictKeys (a.requests handle.legacy) Map.empty).2) := by
  obtain ⟨hconsent, key, hkey, hmissing⟩ := Ask.ready_eq_none.mp h
  have hleft {α : Type} (request : Value) :
      ((.error .inputRequired, Map.insertSorted Map.empty key request) : Except McpError α × Map) =
        (.error (recordMissing responses strictKeys [(key, request)] Map.empty).1,
          (recordMissing responses strictKeys [(key, request)] Map.empty).2) := by
    unfold recordMissing
    rw [containsKey_eq_false_iff.mpr hmissing, recordInput_fresh (Map.get_empty key)]
    rfl
  have hobtained {capability : String} {request : Value}
      (hok : consent handle.clientCapabilities capability = .ok ()) :
      (handle.request key capability request).exec (obtainMrtr responses strictKeys) Map.empty =
        (.error .inputRequired, Map.insertSorted Map.empty key request) := by
    rw [exec_request _ _ hm, hok]
    simp only [obtainMrtr, hmissing, recordInput_fresh (Map.get_empty key)]
  have hobtainedBy {request : Value}
      (hok : consent handle.clientCapabilities "elicitation" = .ok ()) :
      (handle.elicitBy texts key request).exec (obtainMrtr responses strictKeys) Map.empty =
        (.error .inputRequired, Map.insertSorted Map.empty key request) := by
    rw [exec_elicitBy, hobtained hok]
    rfl
  cases a with
  | elicit key' params =>
      obtain rfl := List.mem_singleton.mp hkey
      exact (hobtainedBy hconsent).trans (hleft _)
  | elicitUrl key' params minted =>
      obtain rfl := List.mem_singleton.mp hkey
      exact (hobtainedBy hconsent).trans (hleft _)
  | elicitAll requests =>
      have hc : handle.requireCapability "elicitation" = .ok () :=
        (requireCapability_eq hm _).trans hconsent
      have hall : ¬ (requests.all fun r => Map.containsKey responses r.1) = true := by
        obtain ⟨r, hr, rfl⟩ : ∃ r ∈ requests, r.1 = key := by
          simpa [Ask.keys, Ask.requests] using hkey
        intro hall
        have hpresent := List.all_eq_true.mp hall r hr
        simp [Map.containsKey, hmissing] at hpresent
      show elicitAllMrtr handle texts responses strictKeys Map.empty requests = _
      simp only [elicitAllMrtr, hc]
      rw [if_neg hall]
      rfl
  | createMessage key' params =>
      obtain rfl := List.mem_singleton.mp hkey
      exact (hobtained hconsent).trans (hleft _)
  | listRoots key' =>
      obtain rfl := List.mem_singleton.mp hkey
      exact (hobtained hconsent).trans (hleft _)

end

/-! ## Whole executions -/

/-- What an execution comes to: how the handler ended, or the requests it left behind. -/
def Handler.execution (texts : Texts) (caps : Option Value) (strictKeys : Bool) (h : Handler N)
    (responses : Map) : Except McpError N ⊕ Map :=
  match h.stop (Ask.ready texts responses caps) with
  | .ended r => .inl r
  | .asking a _ =>
      let missing := recordMissing responses strictKeys (a.requests false) Map.empty
      if missing.1 = .inputRequired then .inr missing.2 else .inl (.error missing.1)

section

variable {texts : Texts} {caps : Option Value} {strictKeys : Bool} {h : Handler N}
  {responses responses' collected collected' : Map} {stateIn : Option Value}

/-- The handle of the draft. -/
abbrev mrtrHandleOf (caps stateIn : Option Value) (strictKeys : Bool) (responses : Map) :
    ClientHandle :=
  ⟨.mrtr responses stateIn strictKeys, caps⟩

theorem mrtr_of_ended {r : Except McpError N}
    (hstop : h.stop (Ask.ready texts responses caps) = .ended r) :
    h.mrtr (mrtrHandleOf caps stateIn strictKeys responses) texts responses strictKeys =
      (r, Map.empty) := by
  unfold Handler.mrtr
  rw [Program.attempt_eq (fun a out hr => answerMrtr_of_ready rfl a out hr), hstop]

theorem mrtr_of_asking {a : Ask} {k : a.Reply → Handler N}
    (hstop : h.stop (Ask.ready texts responses caps) = .asking a k) :
    h.mrtr (mrtrHandleOf caps stateIn strictKeys responses) texts responses strictKeys =
      (.error (recordMissing responses strictKeys (a.requests false) Map.empty).1,
        (recordMissing responses strictKeys (a.requests false) Map.empty).2) := by
  have hready : a.ready texts responses caps = none := Program.cache_of_stop hstop
  unfold Handler.mrtr
  rw [Program.attempt_eq (fun a out hr => answerMrtr_of_ready rfl a out hr), hstop]
  exact Program.attempt_error (answerMrtr_eq rfl hready) k

/-- An execution that leaves requests behind stopped at an ask. -/
theorem execution_inr (hexec : h.execution texts caps strictKeys responses = .inr collected) :
    ∃ a k, h.stop (Ask.ready texts responses caps) = .asking a k ∧
      recordMissing responses strictKeys (a.requests false) Map.empty =
        (.inputRequired, collected) := by
  unfold Handler.execution at hexec
  rcases hstop : h.stop (Ask.ready texts responses caps) with r | ⟨a, k⟩
  · rw [hstop] at hexec
    cases hexec
  · rw [hstop] at hexec
    refine ⟨a, k, rfl, ?_⟩
    simp only at hexec
    split at hexec
    · rename_i hinput
      exact Prod.ext hinput (Sum.inr.inj hexec)
    · cases hexec

/-- Its keys are those of the ask that are not answered. -/
theorem keys_of_recorded {a : Ask}
    (h : recordMissing responses strictKeys (a.requests false) Map.empty =
      (.inputRequired, collected)) (key : String) :
    key ∈ collected.map Prod.fst ↔ key ∈ a.keys ∧ Map.get responses key = none := by
  rw [keys_recordMissing h, containsKey_eq_false_iff]
  exact or_iff_right List.not_mem_nil

/-- There always is something that is left behind. -/
theorem execution_ne_nil (hexec : h.execution texts caps strictKeys responses = .inr collected) :
    collected ≠ [] := by
  obtain ⟨a, k, hstop, hrecord⟩ := execution_inr hexec
  obtain ⟨-, key, hkey, hmissing⟩ := Ask.ready_eq_none.mp (Program.cache_of_stop hstop)
  have hmem := (keys_of_recorded hrecord key).mpr ⟨hkey, hmissing⟩
  rintro rfl
  exact List.not_mem_nil hmem

/-- **Starting over**: responses that answer no key of what the first execution left
behind bring about the first execution again. -/
theorem execution_again
    (hfirst : h.execution texts caps strictKeys Map.empty = .inr collected)
    (hforeign : ∀ key ∈ collected.map Prod.fst, Map.get responses key = none) :
    h.execution texts caps strictKeys responses = .inr collected := by
  obtain ⟨a, k, hstop, hrecord⟩ := execution_inr hfirst
  obtain ⟨hconsent, key, hkey, -⟩ := Ask.ready_eq_none.mp (Program.cache_of_stop hstop)
  have hunanswered : ∀ key ∈ a.keys, Map.get responses key = none := by
    intro key hkey
    exact hforeign key ((keys_of_recorded hrecord key).mpr ⟨hkey, Map.get_empty key⟩)
  have hready : a.ready texts responses caps = none :=
    Ask.ready_eq_none.mpr ⟨hconsent, key, hkey, hunanswered key hkey⟩
  have hstops : h.stop (Ask.ready texts responses caps) = .asking a k := by
    rw [Program.stop_of_extends Ask.ready_of_empty, hstop]
    exact Program.stop_none hready k
  have hsame : recordMissing responses strictKeys (a.requests false) Map.empty =
      (.inputRequired, collected) := by
    rw [← hrecord]
    apply recordMissing_congr
    intro key hkey
    rw [Ask.map_fst_requests] at hkey
    rw [containsKey_eq_false_iff.mpr (hunanswered key hkey),
      containsKey_eq_false_iff.mpr (Map.get_empty key)]
  unfold Handler.execution
  rw [hstops]
  simp only [hsame, if_true]

/-- The second execution asks for nothing the first left behind, if that was answered. -/
theorem execution_apart
    (hsecond : h.execution texts caps strictKeys responses = .inr collected')
    (hanswered : ∀ key ∈ collected.map Prod.fst, Map.get responses key ≠ none) :
    ∀ key ∈ collected'.map Prod.fst, key ∉ collected.map Prod.fst := by
  obtain ⟨a, k, -, hrecord⟩ := execution_inr hsecond
  intro key hkey hmem
  exact hanswered key hmem ((keys_of_recorded hrecord key).mp hkey).2

end

end TurboMcp.Server
