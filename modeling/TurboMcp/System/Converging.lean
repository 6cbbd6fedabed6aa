import TurboMcp.System.Rounds

/-!
# Asking inline and in rounds

The same handler, with its asks answered one by one inline and with its asks packaged into
rounds.  As long as it puts one ask at most to the client the two agree; from two asks
under keys of their own on, the rounds never come to the end that the inline path does.
-/

namespace TurboMcp.System

open TurboMcp.Core TurboMcp.Lib TurboMcp.Server TurboMcp.Client

variable {N : Type}

/-! ## The asks of a handler -/

/-- The asks that a handler puts to the client, one after the other. -/
def asksOf (texts : Texts) (caps : Option Value) (c : ClientHandler) : Handler N → List Ask
  | .ret _ => []
  | .call a k =>
      match a.ready texts Map.empty caps with
      | some (.error _) => []
      | some (.ok reply) => asksOf texts caps c (k reply)
      | none =>
          match inlineReply c a with
          | .error _ => [a]
          | .ok reply => a :: asksOf texts caps c (k reply)

section

variable {texts : Texts} {caps : Option Value} {c : ClientHandler} {h : Handler N}

theorem asksOf_call (a : Ask) (k : a.Reply → Handler N) :
    asksOf texts caps c (.call a k) =
      match a.ready texts Map.empty caps with
      | some (.error _) => []
      | some (.ok reply) => asksOf texts caps c (k reply)
      | none =>
          match inlineReply c a with
          | .error _ => [a]
          | .ok reply => a :: asksOf texts caps c (k reply) := by
  rw [asksOf]

theorem asks_of_ended {r : Except McpError N}
    (hstop : h.stop (Ask.ready texts Map.empty caps) = .ended r) :
    asksOf texts caps c h = [] := by
  induction h with
  | ret r => rfl
  | call a k ih =>
      rw [asksOf_call]
      rcases hready : a.ready texts Map.empty caps with _ | e | reply
      · rw [Program.stop_none hready] at hstop
        cases hstop
      · rfl
      · rw [Program.stop_ok hready] at hstop
        exact ih reply hstop

theorem asks_of_asking {a : Ask} {k : a.Reply → Handler N} {reply : a.Reply}
    (hstop : h.stop (Ask.ready texts Map.empty caps) = .asking a k)
    (hreply : inlineReply c a = .ok reply) :
    asksOf texts caps c h = a :: asksOf texts caps c (k reply) := by
  induction h with
  | ret r => cases hstop
  | call a' k' ih =>
      rw [asksOf_call]
      rcases hready : a'.ready texts Map.empty caps with _ | e | reply'
      · rw [Program.stop_none hready] at hstop
        cases hstop
        simp only [hreply]
      · rw [Program.stop_error hready] at hstop
        cases hstop
      · rw [Program.stop_ok hready] at hstop
        exact ih reply' hstop

/-- The first ask is where a handler stops that nothing was answered to. -/
theorem exists_asks_of_asking {a : Ask} {k : a.Reply → Handler N}
    (hstop : h.stop (Ask.ready texts Map.empty caps) = .asking a k) :
    ∃ rest, asksOf texts caps c h = a :: rest := by
  induction h with
  | ret r => cases hstop
  | call a' k' ih =>
      rw [asksOf_call]
      rcases hready : a'.ready texts Map.empty caps with _ | e | reply'
      · rw [Program.stop_none hready] at hstop
        cases hstop
        rcases inlineReply c a with e | reply
        · exact ⟨[], rfl⟩
        · exact ⟨_, rfl⟩
      · rw [Program.stop_error hready] at hstop
        cases hstop
      · rw [Program.stop_ok hready] at hstop
        exact ih reply' hstop

/-! ## Inline -/

variable {handle : ClientHandle}

/-- How an ask that is not ready is answered inline does not depend on what was asked. -/
theorem attempt_fst (hm : handle.mode.available = true) (h : Handler N) (asked : List Value) :
    (h.attempt (fun s a => (handle.answer texts a).exec (obtainInline c) s) asked).1 =
      (inlineRun handle texts c h).1 := by
  unfold inlineRun
  rw [exec_each]
  suffices hsame : ∀ (h : Handler N) (asked asked' : List Value),
      (h.attempt (fun s a => (handle.answer texts a).exec (obtainInline c) s) asked).1 =
        (h.attempt (fun s a => (handle.answer texts a).exec (obtainInline c) s) asked').1 from
    hsame h asked []
  intro h
  induction h with
  | ret r => exact fun _ _ => rfl
  | call a k ih =>
      intro asked asked'
      unfold Program.attempt
      rw [exec_answer hm, exec_answer hm]
      rcases consent handle.clientCapabilities a.needs with e | _
      · rfl
      · dsimp only
        rcases inlineReply c a with e | reply
        · rfl
        · exact ih reply _ _

variable (handle)

/-- Inline, an answered ask is gone past. -/
theorem inlineRun_of_asking (hm : handle.mode.available = true) {a : Ask}
    {k : a.Reply → Handler N} {reply : a.Reply}
    (hstop : h.stop (Ask.ready texts Map.empty handle.clientCapabilities) = .asking a k)
    (hreply : inlineReply c a = .ok reply) :
    (inlineRun handle texts c h).1 = (inlineRun handle texts c (k reply)).1 := by
  have hconsent := (Ask.ready_eq_none.mp (Program.cache_of_stop hstop)).1
  rw [inlineRun_eq hm h, hstop]
  dsimp only
  have hanswer : (handle.answer texts a).exec (obtainInline c) [] =
      (.ok reply, [] ++ (a.requests handle.legacy).map Prod.snd) := by
    rw [exec_answer hm, hconsent]
    dsimp only
    rw [hreply]
  rw [Program.attempt_ok hanswer]
  exact attempt_fst hm (k reply) _

theorem inlineRun_of_ended (hm : handle.mode.available = true) {r : Except McpError N}
    (hstop : h.stop (Ask.ready texts Map.empty handle.clientCapabilities) = .ended r) :
    (inlineRun handle texts c h).1 = r := by
  rw [inlineRun_eq hm h, hstop]

end

/-! ## The answers of a round -/

section

variable {c : ClientHandler}

theorem get_answerInputs_of_not_mem {requests acc answers : Map} {key : String}
    (h : answerInputs c requests acc = .ok answers) (hkey : key ∉ requests.map Prod.fst) :
    Map.get answers key = Map.get acc key := by
  induction requests generalizing acc with
  | nil => rw [Except.ok.inj h]
  | cons r requests ih =>
      obtain ⟨k, request⟩ := r
      rw [List.map_cons, List.mem_cons, not_or] at hkey
      unfold answerInputs at h
      rcases hanswer : answerInput c request with e | answer
      · rw [hanswer] at h
        cases h
      · rw [hanswer] at h
        rw [ih h hkey.2, Map.get_insert, if_neg (Ne.symm hkey.1)]

/-- Each request has its answer under its own key. -/
theorem get_answerInputs {requests acc answers : Map} {key : String} {request answer : Value}
    (h : answerInputs c requests acc = .ok answers) (hkeys : (requests.map Prod.fst).Nodup)
    (hmem : (key, request) ∈ requests) (hanswer : answerInput c request = .ok answer) :
    Map.get answers key = some answer := by
  induction requests generalizing acc with
  | nil => exact absurd hmem List.not_mem_nil
  | cons r requests ih =>
      obtain ⟨k, req⟩ := r
      rw [List.map_cons, List.nodup_cons] at hkeys
      unfold answerInputs at h
      rcases hgiven : answerInput c req with e | given
      · rw [hgiven] at h
        cases h
      · rw [hgiven] at h
        rcases List.mem_cons.mp hmem with heq | hmem
        · obtain ⟨rfl, rfl⟩ := Prod.mk.inj heq
          obtain rfl : given = answer := Except.ok.inj (hgiven.symm.trans hanswer)
          rw [get_answerInputs_of_not_mem h hkeys.1]
          exact Map.get_insert_self _ _ _
        · exact ih h hkeys.2 hmem

theorem exists_answerInputs {requests : Map} (acc : Map)
    (h : ∀ r ∈ requests, ∃ answer, answerInput c r.2 = .ok answer) :
    ∃ answers, answerInputs c requests acc = .ok answers := by
  induction requests generalizing acc with
  | nil => exact ⟨acc, rfl⟩
  | cons r requests ih =>
      obtain ⟨key, request⟩ := r
      obtain ⟨answer, hanswer⟩ := h (key, request) List.mem_cons_self
      unfold answerInputs
      rw [hanswer]
      exact ih _ fun r hr => h r (List.mem_cons_of_mem _ hr)

theorem mem_recorded {requests : List (String × Value)} (hkeys : (requests.map Prod.fst).Nodup)
    (r : String × Value) : r ∈ recorded requests ↔ r ∈ requests := by
  obtain ⟨key, request⟩ := r
  constructor
  · intro hmem
    have hget := Entries.get_of_mem (nodup_recorded hkeys) hmem
    rw [← Map.get, get_recorded hkeys] at hget
    exact Entries.mem_of_get hget
  · intro hmem
    have hget : Map.get (recorded requests) key = some request := by
      rw [get_recorded hkeys]
      exact Entries.get_of_mem hkeys hmem
    exact Entries.mem_of_get hget

/-- The client answers each request of an ask that it answers. -/
theorem answerInput_of_ask {a : Ask} {reply : a.Reply} (h : askAnswer c a = .ok reply) :
    ∀ r ∈ a.requests false, ∃ answer, answerInput c r.2 = .ok answer := by
  intro r hr
  cases a with
  | elicit key params =>
      obtain rfl := List.mem_singleton.mp hr
      exact ⟨_, answerInput_elicit c params⟩
  | elicitUrl key params minted =>
      obtain rfl := List.mem_singleton.mp hr
      exact ⟨_, answerInput_elicitUrl c params _⟩
  | elicitAll requests =>
      obtain ⟨r', -, rfl⟩ := List.mem_map.mp hr
      exact ⟨_, answerInput_elicit c r'.2⟩
  | createMessage key params =>
      obtain rfl := List.mem_singleton.mp hr
      exact ⟨reply, (answerInput_createMessage c params).trans h⟩
  | listRoots key =>
      obtain rfl := List.mem_singleton.mp hr
      exact ⟨reply, (answerInput_listRoots c).trans h⟩

theorem parseBatch_held {texts : Texts} {answers : Map} {requests : List (String × ElicitParams)}
    (h : ∀ r ∈ requests, Map.get answers r.1 = some (elicitOutcomeValue (c.elicit r.2))) :
    parseBatch texts answers requests = .ok (requests.map fun r => arrived (c.elicit r.2)) := by
  unfold parseBatch
  induction requests with
  | nil => rfl
  | cons r requests ih =>
      rw [List.mapM_cons, h r List.mem_cons_self, ih fun r hr => h r (List.mem_cons_of_mem _ hr),
        Option.getD_some, parse_elicitOutcomeValue]
      rfl

/-- With the answers of its own round, an ask is replied to as it is inline. -/
theorem cached_answers {a : Ask} (texts : Texts) (hkeys : a.keys.Nodup) {reply : a.Reply}
    (h : askAnswer c a = .ok reply) {answers : Map}
    (hanswers : answerInputs c (recorded (a.requests false)) [] = .ok answers) :
    a.cached texts answers = some (.ok reply) := by
  rw [← Ask.map_fst_requests _ false] at hkeys
  have hget : ∀ {key : String} {request answer : Value}, (key, request) ∈ a.requests false →
      answerInput c request = .ok answer → Map.get answers key = some answer := by
    intro key request answer hmem hanswer
    exact get_answerInputs hanswers (nodup_recorded hkeys) ((mem_recorded hkeys _).mpr hmem) hanswer
  cases a with
  | elicit key params =>
      obtain rfl := Except.ok.inj h
      have hread : (Map.get answers key).map (parseElicitOutcome texts) =
          some (.ok (arrived (c.elicit params))) := by
        rw [hget List.mem_cons_self (answerInput_elicit c params), Option.map_some,
          parse_elicitOutcomeValue]
      exact hread
  | elicitUrl key params minted =>
      obtain rfl := Except.ok.inj h
      have hread : (Map.get answers key).map (parseElicitOutcome texts) =
          some (.ok (arrived (c.elicit (readAsForm params)))) := by
        rw [hget List.mem_cons_self (answerInput_elicitUrl c params _), Option.map_some,
          parse_elicitOutcomeValue]
      exact hread
  | elicitAll requests =>
      obtain rfl := Except.ok.inj h
      have hheld : ∀ r ∈ requests,
          Map.get answers r.1 = some (elicitOutcomeValue (c.elicit r.2)) := by
        intro r hr
        exact hget (List.mem_map_of_mem hr) (answerInput_elicit c r.2)
      have hall : (requests.all fun r => Map.containsKey answers r.1) = true := by
        rw [List.all_eq_true]
        intro r hr
        rw [Map.containsKey, hheld r hr]
        rfl
      have hread : (if (requests.all fun r => Map.containsKey answers r.1) = true then
          some (parseBatch texts answers requests) else none) =
            some (.ok (requests.map fun r => arrived (c.elicit r.2))) := by
        rw [if_pos hall, parseBatch_held hheld]
      exact hread
  | createMessage key params =>
      have hread : (Map.get answers key).map Except.ok =
          some (.ok reply : Except McpError Value) := by
        rw [hget List.mem_cons_self ((answerInput_createMessage c params).trans h)]
        rfl
      exact hread
  | listRoots key =>
      have hread : (Map.get answers key).map Except.ok =
          some (.ok reply : Except McpError Value) := by
        rw [hget List.mem_cons_self ((answerInput_listRoots c).trans h)]
        rfl
      exact hread

end

/-! ## Two rounds -/

section

variable {s : Host N} {b : ClientBuilder} {c : ClientHandler} {method : String} {m : Map}
  {ctx : RequestContext} {params : Params} {responses answers : Map}

/-- Where a handler ends, the round does. -/
theorem round_of_ended {r : Except McpError N} (hstop : (s.handler ctx params).stop
      (Ask.ready s.d.texts responses ctx.clientCapabilities) = .ended r) :
    s.round c ctx params responses = .inl (s.delivered (s.executed (r, Map.empty))) := by
  have hexec : (s.handler ctx params).execution s.d.texts ctx.clientCapabilities
      s.d.strictElicitationKeys responses = .inl r := by
    unfold Handler.execution
    rw [hstop]
  unfold Host.round
  rw [hexec]

/-- Where a handler asks under fresh keys, the round brings the answers to that ask. -/
theorem round_of_asking {a : Ask} {k : a.Reply → Handler N} {reply : a.Reply}
    (hstop : (s.handler ctx params).stop
      (Ask.ready s.d.texts responses ctx.clientCapabilities) = .asking a k)
    (hkeys : a.keys.Nodup) (hmissing : ∀ key ∈ a.keys, Map.get responses key = none)
    (hreply : askAnswer c a = .ok reply) :
    ∃ answers, s.round c ctx params responses = .inr answers ∧
      answerInputs c (recorded (a.requests false)) [] = .ok answers := by
  have hnodup := hkeys
  rw [← Ask.map_fst_requests a false] at hnodup
  have hrecord : recordMissing responses s.d.strictElicitationKeys (a.requests false) Map.empty =
      (.inputRequired, recorded (a.requests false)) := by
    apply recordMissing_all hnodup
    · exact fun key _ => Map.get_empty key
    · rw [Ask.map_fst_requests]
      exact hmissing
  have hexec : (s.handler ctx params).execution s.d.texts ctx.clientCapabilities
      s.d.strictElicitationKeys responses = .inr (recorded (a.requests false)) := by
    unfold Handler.execution
    rw [hstop]
    simp only [hrecord, if_true]
  obtain ⟨answers, hanswers⟩ := exists_answerInputs (c := c) [] fun r hr =>
    answerInput_of_ask hreply r ((mem_recorded hnodup r).mp hr)
  refine ⟨answers, ?_, hanswers⟩
  unfold Host.round
  rw [hexec]
  simp only [hanswers]

/-- With its answers there, the handler goes past the ask. -/
theorem stop_of_answers {h : Handler N} {texts : Texts} {caps : Option Value} {a : Ask}
    {k : a.Reply → Handler N} {reply : a.Reply}
    (hstop : h.stop (Ask.ready texts Map.empty caps) = .asking a k) (hkeys : a.keys.Nodup)
    (hreply : askAnswer c a = .ok reply)
    (hanswers : answerInputs c (recorded (a.requests false)) [] = .ok answers) :
    h.stop (Ask.ready texts answers caps) = (k reply).stop (Ask.ready texts answers caps) := by
  have hconsent := (Ask.ready_eq_none.mp (Program.cache_of_stop hstop)).1
  have hready : a.ready texts answers caps = some (.ok reply) := by
    unfold Ask.ready
    rw [hconsent]
    exact cached_answers texts hkeys hreply hanswers
  rw [Program.stop_of_extends Ask.ready_of_empty, hstop]
  exact Program.stop_ok hready k

/-- The server answers a handler's end as that of a handler that ends at once. -/
theorem reply_ending (hs : s.Serves) {id : RequestId}
    (ha : s.Accepts (framed b method id m) ctx params)
    (hresponses : Map.get m "inputResponses" = none) (hstate : Map.get m "requestState" = none)
    (r : Except McpError N) :
    (s.ending r).reply (framed b method id m) = s.delivered (s.executed (r, Map.empty)) := by
  have hserves : (s.ending r).Serves :=
    ⟨hs.asks, hs.registers, hs.unowned, hs.unaugmented, hs.uncancelled, hs.complete⟩
  have haccepts : (s.ending r).Accepts (framed b method id m) ctx params :=
    ⟨ha.valid, ha.method, ha.route, ha.level, ha.context, ha.parsed⟩
  have hfields : mrtrFields (framed b method id m).params = (Map.empty, none) :=
    mrtrFields_first b hresponses hstate
  exact Host.reply_of_ended hserves haccepts hfields rfl

/-- **One ask at most**: a handler that the client answers, and whose asks have keys of
their own, ends on the draft as it does inline if it asks once at most; else the call
fails after sixteen requests. -/
theorem agrees_up_to_one_ask (hs : s.Serves)
    (ha : s.Accepts (framed b method (.number 0) m) ctx params)
    (hresponses : Map.get m "inputResponses" = none) (hstate : Map.get m "requestState" = none)
    (hanswered : ∀ a ∈ asksOf s.d.texts ctx.clientCapabilities c (s.handler ctx params),
      ∃ reply, askAnswer c a = .ok reply ∧ isNull a reply = false)
    (hkeys : ((asksOf s.d.texts ctx.clientCapabilities c (s.handler ctx params)).flatMap
      Ask.keys).Nodup)
    (session connection : String) :
    (mrtrRequest b .draft (some c) method m).exec s.exchange 0 =
      if (asksOf s.d.texts ctx.clientCapabilities c (s.handler ctx params)).length ≤ 1 then
        ((s.ending (inlineRun ⟨.bidi session connection, ctx.clientCapabilities⟩ s.d.texts c
            (s.handler ctx params)).1).reply (framed b method (.number 0) m),
          (asksOf s.d.texts ctx.clientCapabilities c (s.handler ctx params)).length + 1)
      else (notConverged, 16) := by
  let handle : ClientHandle := ⟨.bidi session connection, ctx.clientCapabilities⟩
  have hm : handle.mode.available = true := rfl
  unfold mrtrRequest
  rw [exec_mrtrRounds hs ha hstate (mrtrFields_first b hresponses hstate), Nat.zero_add,
    reply_ending hs ha hresponses hstate]
  rcases hstop : (s.handler ctx params).stop
    (Ask.ready s.d.texts Map.empty ctx.clientCapabilities) with r | ⟨a, k⟩
  · -- nothing is asked
    rw [asks_of_ended hstop, inlineRun_of_ended handle hm hstop, maxMrtrRounds,
      attempts_done (round_of_ended hstop)]
    rfl
  · obtain ⟨rest, hrest⟩ := exists_asks_of_asking (c := c) hstop
    obtain ⟨reply, hreply, hnull⟩ := hanswered a (by rw [hrest]; exact List.mem_cons_self)
    have hinline : inlineReply c a = .ok reply := by
      rw [inlineReply_of_ok hreply, hnull]
      rfl
    have hasks := asks_of_asking hstop hinline
    rw [hasks, List.flatMap_cons] at hkeys
    obtain ⟨hnodup, hrestkeys, hdisjoint⟩ := List.nodup_append'.mp hkeys
    obtain ⟨answers, hround, hanswers⟩ := round_of_asking hstop hnodup
      (fun key _ => Map.get_empty key) hreply
    have hgoes := stop_of_answers hstop hnodup hreply hanswers
    rw [inlineRun_of_asking handle hm hstop hinline, hasks, maxMrtrRounds,
      attempts_again hround]
    rcases hstop' : (k reply).stop (Ask.ready s.d.texts Map.empty ctx.clientCapabilities) with
      r | ⟨a', k'⟩
    · -- one ask, and its answers take the handler to its end
      have hends : (s.handler ctx params).stop
          (Ask.ready s.d.texts answers ctx.clientCapabilities) = .ended r := by
        rw [hgoes, Program.stop_of_extends Ask.ready_of_empty, hstop']
      rw [asks_of_ended hstop', inlineRun_of_ended handle hm hstop',
        attempts_done (round_of_ended hends)]
      rfl
    · -- a second ask, for which the first one's answers are given up
      obtain ⟨rest', hrest'⟩ := exists_asks_of_asking (c := c) hstop'
      obtain ⟨reply', hreply', -⟩ := hanswered a' (by
        rw [hasks, hrest']
        exact List.mem_cons_of_mem _ List.mem_cons_self)
      rw [hrest', List.flatMap_cons] at hrestkeys hdisjoint
      have hmissing : ∀ key ∈ a'.keys, Map.get answers key = none := by
        intro key hkey
        rw [keys_answerInputs hanswers]
        refine ⟨?_, rfl⟩
        intro hheld
        obtain ⟨r, hr, rfl⟩ := List.mem_map.mp hheld
        rw [← Ask.map_fst_requests a false] at hnodup
        have hmem := List.mem_map_of_mem (f := Prod.fst) ((mem_recorded hnodup r).mp hr)
        rw [Ask.map_fst_requests] at hmem
        exact hdisjoint hmem (List.mem_append_left _ hkey)
      have hnodup' : a'.keys.Nodup := (List.nodup_append'.mp hrestkeys).1
      obtain ⟨hconsent, key, hkey, -⟩ := Ask.ready_eq_none.mp (Program.cache_of_stop hstop')
      have hready : a'.ready s.d.texts answers ctx.clientCapabilities = none :=
        Ask.ready_eq_none.mpr ⟨hconsent, key, hkey, hmissing key hkey⟩
      have hasking : (s.handler ctx params).stop
          (Ask.ready s.d.texts answers ctx.clientCapabilities) = .asking a' k' := by
        rw [hgoes, Program.stop_of_extends Ask.ready_of_empty, hstop']
        exact Program.stop_none hready k'
      obtain ⟨second, hround', -⟩ := round_of_asking hasking hnodup' hmissing hreply'
      rw [hrest', attempts_of_turns hround' (round_again hround hround'), if_neg]
      simp

end

/-! ## One form and two -/

/-- Inline the handler of two forms ends; on the draft only the handler of one does. -/
theorem one_form_agrees :
    (mrtrRequest elicitingClient .draft (some acceptingHandler) "tools/call" greetParams).exec
        (draftHost askName).exchange 0 = (.ok (.object [("resultType", .string "complete")]), 2) ∧
      (mrtrRequest elicitingClient .draft (some acceptingHandler) "tools/call" greetParams).exec
        (draftHost askNameAndCity).exchange 0 = (notConverged, 16) ∧
      (inlineRun ⟨.bidi "session" "connection", elicitingCaps⟩ sampleTexts acceptingHandler
        askNameAndCity).1 = .ok () := by
  have hform : ∀ (key : String) (params : ElicitParams),
      ∃ reply, askAnswer acceptingHandler (.elicit key params) = .ok reply ∧
        isNull (.elicit key params) reply = false :=
    fun _ _ => ⟨_, rfl, rfl⟩
  refine ⟨?_, ?_, by decide +kernel⟩
  · have hanswered : ∀ a ∈ [Ask.elicit "name" nameForm],
        ∃ reply, askAnswer acceptingHandler a = .ok reply ∧ isNull a reply = false := by
      rintro a ha
      rw [List.mem_singleton.mp ha]
      exact hform _ _
    rw [agrees_up_to_one_ask (draftHost_serves askName) (draftHost_accepts askName) rfl rfl
      hanswered (by decide +kernel) "session" "connection"]
    decide +kernel
  · have hanswered : ∀ a ∈ [Ask.elicit "name" nameForm, .elicit "city" cityForm],
        ∃ reply, askAnswer acceptingHandler a = .ok reply ∧ isNull a reply = false := by
      rintro a ha
      rcases List.mem_cons.mp ha with rfl | ha
      · exact hform _ _
      · rw [List.mem_singleton.mp ha]
        exact hform _ _
    rw [agrees_up_to_one_ask (draftHost_serves askNameAndCity) (draftHost_accepts askNameAndCity)
      rfl rfl hanswered (by decide +kernel) "session" "connection"]
    rfl

end TurboMcp.System
