import TurboMcp.System.Mediation
import TurboMcp.System.Rounds

/-!
# A task ends as its call does inline

The handler asks through the store, one request at a time, and the client sees a
request only once it polls; still what the client is asked, what it answers and what it
makes of the end are those of the same call answered inline.  The proof follows the one
entry: what of the inline run is left to the handler, which request the entry holds for
the client, and what the client was last shown of it.
-/

namespace TurboMcp.System

open TurboMcp.Core TurboMcp.Lib TurboMcp.Server TurboMcp.Client TurboMcp.ExtTasks

variable {N : Type}

/-! ## The inline run -/

section

variable {c : ClientHandler}

/-- What has been asked has been asked. -/
theorem prefix_exec_inline {α : Type} (p : Obtaining α) (asked : List Value) :
    asked <+: (p.exec (obtainInline c) asked).2 := by
  induction p generalizing asked with
  | ret a => exact List.prefix_refl _
  | call o k ih => exact (List.prefix_append _ _).trans (ih _ _)

/-- A URL is answered alike with and without the id of the legacy wire. -/
theorem map_answer_requests (a : Ask) (legacy legacy' : Bool) :
    (a.requests legacy).map (fun r => answerInput c r.2) =
      (a.requests legacy').map fun r => answerInput c r.2 := by
  cases a with
  | elicitUrl key params minted =>
      simp only [Ask.requests, List.map_cons, List.map_nil, answerInput_elicitUrl]
  | _ => rfl

/-- The handles of a client that differ in their wire alone lead to the same end, over
the same answers. -/
theorem inlineRun_congr {handle handle' : ClientHandle} (hm : handle.mode.available = true)
    (hm' : handle'.mode.available = true)
    (hcaps : handle.clientCapabilities = handle'.clientCapabilities) (texts : Texts)
    (h : Handler N) :
    (inlineRun handle texts c h).1 = (inlineRun handle' texts c h).1 ∧
      (inlineRun handle texts c h).2.map (answerInput c) =
        (inlineRun handle' texts c h).2.map (answerInput c) := by
  unfold inlineRun
  rw [exec_each, exec_each]
  refine Program.attempt_rel
    (ρ := fun asked asked' : List Value => asked.map (answerInput c) = asked'.map (answerInput c))
    ?_ h rfl
  intro asked asked' a hasked
  rw [exec_answer hm, exec_answer hm', hcaps]
  cases consent handle'.clientCapabilities a.needs with
  | error e => exact ⟨rfl, hasked⟩
  | ok _ =>
      refine ⟨rfl, ?_⟩
      simp only [List.map_append, List.map_map]
      exact congrArg₂ (· ++ ·) hasked (map_answer_requests a _ _)

end

/-! ## What the client sees of the end -/

namespace Mediation

section

variable {b : ClientBuilder} {version : ProtocolVersion} {handler : Option ClientHandler}

theorem jsonrpcCode_i32 (err : McpError) :
    -2 ^ 31 ≤ (mcpToJsonrpcError err).code ∧ (mcpToJsonrpcError err).code < 2 ^ 31 := by
  unfold mcpToJsonrpcError McpError.jsonrpcCode
  cases err <;> simp only <;> omega

/-- The view of a task that has ended settles its driver with what the handler made. -/
theorem lookAt_outcome (rfc3339 : Nat → String) {e : Entry} (hexact : e.Exact) (id : String)
    (render : N → Value) {r : Except McpError N} (h : e.outcome = some (outcomeOf render r))
    (answered : List String) :
    lookAt b version handler id answered ((e.detailed id).toValue rfc3339) =
      .ret (.done (ending render r)) := by
  rcases r with err | result
  · have hstatus : e.status = .failed := hexact.failed.mp ⟨_, h⟩
    rw [lookAt_failed ((status_detailed e id).trans (by rw [hstatus]; rfl))]
    obtain ⟨hlow, hhigh⟩ := jsonrpcCode_i32 err
    rw [failedError_of (error_detailed e id hstatus h) hlow hhigh]
    rfl
  · have hstatus : e.status = .completed := hexact.completed.mp ⟨_, h⟩
    exact lookAt_completed ((status_detailed e id).trans (by rw [hstatus]; rfl))
      (result_detailed e id hstatus h) answered

end

/-! ## The invariant -/

section

variable (x : Setting N) (whole : Except McpError N × List Value)

/-- Where the handler is in the inline run `whole`, and what its task holds: `asked` are
the requests the client has answered. -/
inductive Phase (e : Entry) (sent : List (Channel × Value)) : List Value → Running N → Prop
  | running {asked : List Value} {p : Obtaining (Except McpError N)}
      (hstatus : e.status = .working) (hnone : e.inputs.outstanding.entries = [])
      (hrest : p.exec (obtainInline x.client) asked = whole) : Phase e sent asked (.at p)
  | asking {asked : List Value} {key : String} {request : Value} {rx : Channel}
      {k : Except McpError Value → Obtaining (Except McpError N)}
      (hstatus : e.status = .inputRequired)
      (hone : e.inputs.outstanding.entries = [(key, request)])
      (hwaits : e.inputs.waiters.get key = some rx)
      (hrest : (k (sendAndAwait x.client request)).exec (obtainInline x.client)
        (asked ++ [request]) = whole) : Phase e sent asked (.awaiting rx k)
  | answered {asked : List Value} {rx : Channel} {v : Value}
      {k : Except McpError Value → Obtaining (Except McpError N)}
      (hstatus : e.status = .working) (hnone : e.inputs.outstanding.entries = [])
      (hsent : (rx, v) ∈ sent)
      (hrest : (k (.ok v)).exec (obtainInline x.client) asked = whole) :
      Phase e sent asked (.awaiting rx k)
  | finished {asked : List Value} {r : Except McpError N}
      (houtcome : e.outcome = some (outcomeOf x.render r))
      (hnone : e.inputs.outstanding.entries = []) (hwhole : (r, asked) = whole) :
      Phase e sent asked .finished

/-- What the client was last shown: a task at work, one request, which it has answered or
which still stands, or the end of the inline run. -/
inductive Shows (e : Entry) (asked : List Value) (known : Watched) : Prop
  | working (h : (known.view.get "status").bind Value.asStr = some "working")
  | asking {key : String} {request : Value}
      (h : (known.view.get "status").bind Value.asStr = some "input_required")
      (hone : known.requests = [(key, request)]) (hmem : request ∈ whole.2)
      (hnew : key ∈ known.answered ∨ e.inputs.outstanding.entries = [(key, request)])
  | ended {r : Except McpError N} (hwhole : (r, asked) = whole)
      (h : ∀ answered, lookAt x.builder x.version (some x.client) x.id answered known.view =
        .ret (.done (ending x.render r)))

/-- The two sides and the entry between them. -/
structure Coupled (s : State N) (e : Entry) (known : Watched) (asked : List Value) : Prop where
  tracked : s.timeline.Tracked
  entry : s.timeline.store.inner.get x.id = some e
  cancel : e.cancel = x.cancel
  phase : Phase x whole e s.timeline.store.sent asked s.handler
  follows : Program.Follows (watching x.builder x.version (some x.client) x.id) known s.client
    fun known ending => known.Ends x.builder x.version (some x.client) x.id ending
  accepted : known.refused = none
  used : known.answered ⊆ e.inputs.used
  shows : Shows x whole e asked known
  responses : s.responses.map (fun r => Except.ok r.2) = asked.map (answerInput x.client)

/-- The task is neither cancelled nor gone. -/
structure Kept (s : State N) : Prop where
  present : (s.timeline.store.inner.get x.id).isSome = true
  uncancelled : x.cancel ∉ s.timeline.store.fired

/-- The client answers each request of the inline run, and none with `null`. -/
def Answered : Prop :=
  ∀ request ∈ whole.2, ∃ v, answerInput x.client request = .ok v ∧ v ≠ .null

end

section

variable {x : Setting N} {whole : Except McpError N × List Value} {s t : State N} {e : Entry}
  {known : Watched} {asked : List Value}

/-- Only what the inline run asks is asked, and all that was asked is of the run. -/
theorem Phase.asked_prefix {sent : List (Channel × Value)} {handler : Running N}
    (h : Phase x whole e sent asked handler) : asked <+: whole.2 := by
  cases h with
  | running _ _ hrest =>
      rw [← hrest]
      exact prefix_exec_inline _ asked
  | asking _ _ _ hrest =>
      rw [← hrest]
      exact (List.prefix_append asked _).trans (prefix_exec_inline _ _)
  | answered _ _ _ hrest =>
      rw [← hrest]
      exact prefix_exec_inline _ asked
  | finished _ _ hwhole =>
      subst hwhole
      exact List.prefix_refl asked

theorem Phase.of_subset {sent sent' : List (Channel × Value)} {handler : Running N}
    (h : Phase x whole e sent asked handler) (hsub : sent ⊆ sent') :
    Phase x whole e sent' asked handler := by
  cases h with
  | running hstatus hnone hrest => exact .running hstatus hnone hrest
  | asking hstatus hone hwaits hrest => exact .asking hstatus hone hwaits hrest
  | answered hstatus hnone hsent hrest => exact .answered hstatus hnone (hsub hsent) hrest
  | finished houtcome hnone hwhole => exact .finished houtcome hnone hwhole

/-- Where a request stands, the handler awaits its answer. -/
theorem Phase.of_outstanding {sent : List (Channel × Value)} {handler : Running N} {key : String}
    {request : Value} (h : Phase x whole e sent asked handler)
    (hout : e.inputs.outstanding.entries = [(key, request)]) :
    ∃ rx k, handler = .awaiting rx k ∧ e.status = .inputRequired ∧
      e.inputs.waiters.get key = some rx ∧
      (k (sendAndAwait x.client request)).exec (obtainInline x.client) (asked ++ [request]) =
        whole := by
  cases h with
  | running _ hnone _ =>
      rw [hnone] at hout
      cases hout
  | answered _ hnone _ _ =>
      rw [hnone] at hout
      cases hout
  | finished _ hnone _ =>
      rw [hnone] at hout
      cases hout
  | asking hstatus hone hwaits hrest =>
      rw [hone] at hout
      cases hout
      exact ⟨_, _, rfl, hstatus, hwaits, hrest⟩

/-- The request that stands is one of the run. -/
theorem mem_whole_of_rest {request : Value} {p : Obtaining (Except McpError N)}
    (h : p.exec (obtainInline x.client) (asked ++ [request]) = whole) : request ∈ whole.2 := by
  have hpart := prefix_exec_inline (c := x.client) p (asked ++ [request])
  rw [h] at hpart
  exact hpart.subset (List.mem_append_right asked (List.mem_singleton_self request))

/-! ## What the client is shown -/

/-- A view that asks for what was answered stands whatever becomes of the entry. -/
theorem Shows.of_none (h : Shows x whole e asked known)
    (hnone : e.inputs.outstanding.entries = []) (e' : Entry) : Shows x whole e' asked known := by
  cases h with
  | working h => exact .working h
  | asking h hone hmem hnew =>
      refine .asking h hone hmem (hnew.imp_right fun hout => ?_)
      rw [hnone] at hout
      cases hout
  | ended hwhole h => exact .ended hwhole h

/-- What `tasks/get` shows is where the handler is. -/
theorem Phase.shows {sent : List (Channel × Value)} {handler : Running N}
    (h : Phase x whole e sent asked handler) (hexact : e.Exact) (known : Watched) :
    Shows x whole e asked { known with view := (e.detailed x.id).toValue x.rfc3339 } := by
  cases h with
  | running hstatus _ _ => exact .working ((status_detailed e x.id).trans (by rw [hstatus]; rfl))
  | answered hstatus _ _ _ => exact .working ((status_detailed e x.id).trans (by rw [hstatus]; rfl))
  | asking hstatus hone _ hrest =>
      refine .asking ((status_detailed e x.id).trans (by rw [hstatus]; rfl)) ?_
        (mem_whole_of_rest hrest) (.inr hone)
      unfold Watched.requests
      rw [requests_detailed e x.id hstatus, hone]
      rfl
  | finished houtcome _ hwhole =>
      exact .ended hwhole (lookAt_outcome x.rfc3339 hexact x.id x.render houtcome)

/-- A client that settles has seen the end of the inline run. -/
theorem Coupled.settled (hc : Coupled x whole s e known asked) (hanswers : Answered x whole)
    {result : Except ClientError Value} (hclient : s.client = .ret (some (.settled result))) :
    result = ending x.render whole.1 ∧ asked = whole.2 := by
  have hends := hc.follows
  rw [hclient] at hends
  rcases hends result rfl with hrefused | hlook
  · rw [hc.accepted] at hrefused
    cases hrefused
  · cases hc.shows with
    | working h =>
        rw [lookAt_working h] at hlook
        cases hlook
    | @asking key request h hone hmem _ =>
        obtain ⟨v, hanswer, -⟩ := hanswers request hmem
        by_cases hkey : key ∈ known.answered
        · rw [lookAt_of_nil h (by rw [hone]; exact answerNew_known hkey)] at hlook
          cases hlook
        · exact absurd hlook (lookAt_of_new h (by rw [hone]; exact answerNew_one hkey hanswer)
            (List.cons_ne_nil _ _) result)
    | ended hwhole h =>
        rw [h known.answered] at hlook
        cases hlook
        rw [← hwhole]
        exact ⟨rfl, rfl⟩

/-! ## Steps of the handler -/

theorem Coupled.exact (hc : Coupled x whole s e known asked) : e.Exact :=
  hc.tracked.sound.exact x.id e hc.entry

/-- The waiter of a request that stands has been sent nothing. -/
theorem Coupled.unsent (hc : Coupled x whole s e known asked) {key : String} {rx : Channel}
    (hwaits : e.inputs.waiters.get key = some rx) (v : Value) :
    (rx, v) ∉ s.timeline.store.sent := by
  intro hsent
  exact (hc.tracked.waits x.id e hc.entry key rx hwaits).2 (List.mem_map_of_mem hsent)

/-- The entry after a call on the task, which stays. -/
theorem Coupled.entry_after (hc : Coupled x whole s e known asked) {c : DraftTaskStore.Call}
    {timeline : Timeline} (htimeline : Timeline.Step s.timeline c timeline) (htask : c.task = x.id)
    (hstays : (timeline.store.inner.get x.id).isSome = true) :
    (s.timeline.store.purgedBy c).inner.get x.id = some e ∧
      timeline.store.inner.get x.id = some (e.after c) := by
  have hget := Timeline.get_of_stays htimeline hc.tracked.sound hc.entry hstays
  rw [if_pos htask] at hget
  exact hget

/-- The next ask of the handler becomes the one request that stands. -/
theorem Coupled.publish (hc : Coupled x whole s e known asked) {now nowWall : Nat} {rx : Channel}
    {key : String} {request : Value} {k : Except McpError Value → Obtaining (Except McpError N)}
    {timeline : Timeline} (hhandler : s.handler = .at (.call ⟨key, request⟩ k))
    (htimeline : Timeline.Step s.timeline
      ⟨now, nowWall, .publishInput x.id key request rx⟩ timeline)
    (hstays : (timeline.store.inner.get x.id).isSome = true) :
    (s.timeline.store.publishInput now nowWall x.id key request rx).2 = some rx ∧
      Coupled x whole { s with timeline, handler := .awaiting rx k }
        (e.publish nowWall key request rx) known asked := by
  obtain ⟨hpurged, hget⟩ := hc.entry_after htimeline rfl hstays
  have hphase := hc.phase
  rw [hhandler] at hphase
  cases hphase with
  | running hstatus hnone hrest =>
      have hlive : e.status.isTerminal = false := by
        rw [hstatus]
        rfl
      have hafter : e.after ⟨now, nowWall, .publishInput x.id key request rx⟩ =
          e.publish nowWall key request rx := by
        unfold Entry.after
        dsimp only
        rw [hlive]
        rfl
      have hinputs := Entry.publish_inputs e nowWall key request rx
      have hasks : (e.publish nowWall key request rx).status = .inputRequired := by
        unfold Entry.publish
        rw [if_pos hstatus]
      have hone : (e.publish nowWall key request rx).inputs.outstanding.entries =
          [(uniquify e.inputs.used key, request)] := by
        rw [hinputs]
        show Entries.insert e.inputs.outstanding.entries _ request = _
        rw [hnone]
        rfl
      have hwaits : (e.publish nowWall key request rx).inputs.waiters.get
          (uniquify e.inputs.used key) = some rx := by
        rw [hinputs]
        exact Dict.get_insert_self _ _ rx
      refine ⟨DraftTaskStore.publishInput_of_live hpurged hlive, ?_⟩
      rw [hafter] at hget
      constructor
      · exact Timeline.tracked_step htimeline hc.tracked
      · exact hget
      · rw [← hafter, Entry.after_cancel]
        exact hc.cancel
      · exact .asking hasks hone hwaits hrest
      · exact hc.follows
      · exact hc.accepted
      · rw [hinputs]
        exact fun key hkey => List.mem_insert_of_mem (hc.used hkey)
      · exact hc.shows.of_none hnone _
      · exact hc.responses

/-- The handler goes on with nothing but the client's answer. -/
theorem Coupled.resume (hc : Coupled x whole s e known asked) (hkept : Kept x s) {rx : Channel}
    {reply : Except McpError Value} {k : Except McpError Value → Obtaining (Except McpError N)}
    (hhandler : s.handler = .awaiting rx k)
    (hobtains : Obtains s.timeline.store x.cancel rx reply) :
    Coupled x whole { s with handler := .at (k reply) } e known asked := by
  have hphase := hc.phase
  rw [hhandler] at hphase
  refine { hc with phase := ?_ }
  cases hphase with
  | asking hstatus hone hwaits hrest =>
      -- the request still stands: there is nothing to go on with
      cases hobtains with
      | cancelled h => exact absurd h hkept.uncancelled
      | response h => exact absurd h (hc.unsent hwaits _)
      | closed _ hdropped => exact absurd hwaits (hdropped x.id e hc.entry _)
  | answered hstatus hnone hsent hrest =>
      cases hobtains with
      | cancelled h => exact absurd h hkept.uncancelled
      | response h =>
          cases List.inj_on_of_nodup_map hc.tracked.once hsent h rfl
          exact .running hstatus hnone hrest
      | closed hunsent _ => exact absurd (List.mem_map_of_mem hsent) hunsent

/-- The handler ends as it does inline. -/
theorem Coupled.complete (hc : Coupled x whole s e known asked) {now nowWall : Nat}
    {r : Except McpError N} {timeline : Timeline} (hhandler : s.handler = .at (.ret r))
    (htimeline : Timeline.Step s.timeline
      ⟨now, nowWall, .complete x.id (outcomeOf x.render r)⟩ timeline)
    (hstays : (timeline.store.inner.get x.id).isSome = true) :
    Coupled x whole { s with timeline, handler := .finished }
      (e.finish nowWall (outcomeOf x.render r)) known asked := by
  obtain ⟨-, hget⟩ := hc.entry_after htimeline rfl hstays
  have hphase := hc.phase
  rw [hhandler] at hphase
  cases hphase with
  | running hstatus hnone hrest =>
      have hafter : e.after ⟨now, nowWall, .complete x.id (outcomeOf x.render r)⟩ =
          e.finish nowWall (outcomeOf x.render r) := by
        unfold Entry.after
        dsimp only
        rw [hstatus]
        rfl
      have hinputs := Entry.finish_inputs e nowWall (outcomeOf x.render r)
      rw [hafter] at hget
      constructor
      · exact Timeline.tracked_step htimeline hc.tracked
      · exact hget
      · rw [← hafter, Entry.after_cancel]
        exact hc.cancel
      · refine .finished rfl ?_ hrest
        rw [hinputs]
        exact hnone
      · exact hc.follows
      · exact hc.accepted
      · rw [hinputs]
        exact hc.used
      · exact hc.shows.of_none hnone _
      · exact hc.responses

/-- What others do leaves the task as it is. -/
theorem Coupled.other (hc : Coupled x whole s e known asked) {c : DraftTaskStore.Call}
    {timeline : Timeline} (hforeign : Foreign x.id c)
    (htimeline : Timeline.Step s.timeline c timeline)
    (hkept : Kept x { s with timeline }) : Coupled x whole { s with timeline } e known asked := by
  obtain ⟨hpurged, hget⟩ :=
    Timeline.get_of_stays htimeline hc.tracked.sound hc.entry hkept.present
  have hsame : (if c.task = x.id then e.after c else e) = e := by
    split
    · rename_i htask
      obtain ⟨now, nowWall, op⟩ := c
      cases op with
      | create id ttlMs poll cancel => rfl
      | get id => rfl
      | cancel id =>
          obtain rfl : id = x.id := htask
          by_cases hterm : e.status.isTerminal = true
          · unfold Entry.after
            exact if_pos hterm
          · -- the token of a live task would have been fired
            have hfired := DraftTaskStore.fired_of_cancel nowWall hpurged
              (Bool.eq_false_iff.mpr hterm)
            rw [hc.cancel, ← htimeline.store] at hfired
            exact absurd hfired hkept.uncancelled
      | publishInput id key request rx => exact absurd htask hforeign
      | deliverInputs id responses => exact absurd htask hforeign
      | complete id outcome => exact absurd htask hforeign
    · rfl
  rw [hsame] at hget
  exact { hc with
    tracked := Timeline.tracked_step htimeline hc.tracked
    entry := hget
    phase := hc.phase.of_subset (Timeline.sent_mono htimeline) }

/-! ## Steps of the client -/

section

variable {rfc3339 : Nat → String} {st : DraftTaskStore} {now nowWall : Nat} {b : ClientBuilder}
  {version : ProtocolVersion} {id : String}

theorem callOf_get : TasksExtension.callOf now nowWall "tasks/get" (getParams b version id) =
    some ⟨now, nowWall, .get id⟩ := rfl

theorem callOf_update (responses : Map) :
    TasksExtension.callOf now nowWall "tasks/update" (updateParams b version id responses) =
      some ⟨now, nowWall, .deliverInputs id responses⟩ := rfl

theorem dispatch_get (hget : (st.purgeExpired now).inner.get id = some e) :
    (TasksExtension.dispatch rfc3339 now nowWall st "tasks/get" (getParams b version id)).2 =
      .ok ((e.detailed id).toValue rfc3339) := by
  unfold TasksExtension.dispatch
  rw [parseTaskId_get]
  simp only [DraftTaskStore.get, hget]
  rfl

theorem dispatch_update (hget : (st.purgeExpired now).inner.get id = some e) (responses : Map) :
    (TasksExtension.dispatch rfc3339 now nowWall st "tasks/update"
      (updateParams b version id responses)).2 = .ok TasksExtension.ack := by
  have hsome : (st.deliverInputs now nowWall id responses).2.isSome = true := by
    unfold DraftTaskStore.deliverInputs
    simp only [hget]
    split
    · rfl
    · rfl
  unfold TasksExtension.dispatch
  rw [parseTaskId_update, inputResponses_update]
  exact if_pos hsome

end

/-- A request of the client is a call on its own task, which stays. -/
theorem Coupled.entry_request (hc : Coupled x whole s e known asked) {now nowWall : Nat}
    {method : String} {params : Option Value} {c : DraftTaskStore.Call}
    (hcall : TasksExtension.callOf now nowWall method params = some c) (htask : c.task = x.id)
    (hstays : ((TasksExtension.dispatch x.rfc3339 now nowWall s.timeline.store method
      params).1.inner.get x.id).isSome = true) :
    (TasksExtension.dispatch x.rfc3339 now nowWall s.timeline.store method params).1 =
        s.timeline.store.apply c ∧
      Timeline.Step s.timeline c { s.timeline with store := s.timeline.store.apply c } ∧
      (s.timeline.store.purgedBy c).inner.get x.id = some e ∧
      (s.timeline.store.apply c).inner.get x.id = some (e.after c) := by
  have hstore := TasksExtension.dispatch_store x.rfc3339 now nowWall s.timeline.store method params
  rw [hcall] at hstore
  have hstep := Timeline.step_of_plain (TasksExtension.callOf_plain hcall s.timeline.store)
  rw [hstore] at hstays
  exact ⟨hstore, hstep, hc.entry_after hstep htask hstays⟩

/-- A poll shows where the handler is. -/
theorem Coupled.poll (hc : Coupled x whole s e known asked) {now nowWall : Nat}
    {k : Except ClientError Value → Drive (Option DriveEnd)}
    (hfollows : ∀ reply, Program.Follows (watching x.builder x.version (some x.client) x.id)
      (known.learn (some x.client) "tasks/get" reply) (k reply)
      fun known ending => known.Ends x.builder x.version (some x.client) x.id ending)
    (hstays : ((TasksExtension.dispatch x.rfc3339 now nowWall s.timeline.store "tasks/get"
      (getParams x.builder x.version x.id)).1.inner.get x.id).isSome = true) :
    Coupled x whole
      { s with
        timeline :=
          { s.timeline with
            store := (TasksExtension.dispatch x.rfc3339 now nowWall s.timeline.store "tasks/get"
              (getParams x.builder x.version x.id)).1 }
        client := k (replyOf (TasksExtension.dispatch x.rfc3339 now nowWall s.timeline.store
          "tasks/get" (getParams x.builder x.version x.id)).2)
        responses := s.responses ++ sentIn "tasks/get" (getParams x.builder x.version x.id) } e
      { known with view := (e.detailed x.id).toValue x.rfc3339 } asked := by
  obtain ⟨hstore, hstep, hpurged, hget⟩ := hc.entry_request callOf_get rfl hstays
  rw [hstore, dispatch_get hpurged]
  constructor
  · exact Timeline.tracked_step hstep hc.tracked
  · exact hget
  · exact hc.cancel
  · exact hc.phase.of_subset (Timeline.sent_mono hstep)
  · exact hfollows (.ok _)
  · exact hc.accepted
  · exact hc.used
  · exact hc.phase.shows hc.exact known
  · show (s.responses ++ []).map _ = _
    rw [List.append_nil]
    exact hc.responses

/-- The one request that stands is answered down its channel, and none is left. -/
theorem deliver_one {key : String} {request : Value} {rx : Channel}
    (hstatus : e.status = .inputRequired)
    (hone : e.inputs.outstanding.entries = [(key, request)])
    (hwaits : e.inputs.waiters.get key = some rx) (now nowWall : Nat) (id : String) (v : Value) :
    e.sends ⟨now, nowWall, .deliverInputs id [(key, v)]⟩ = [(rx, v)] ∧
      (e.deliver nowWall [(key, v)]).status = .working ∧
      (e.deliver nowWall [(key, v)]).inputs.outstanding.entries = [] := by
  have hkey : key ∈ e.inputs.outstanding.keys := by
    show key ∈ e.inputs.outstanding.entries.map Prod.fst
    rw [hone]
    exact List.mem_singleton_self key
  have hfold : ([(key, v)] : Map).foldl DraftTaskStore.deliverOne (e.inputs, []) =
      ({ e.inputs with waiters := e.inputs.waiters.remove key
                       outstanding := e.inputs.outstanding.remove key }, [(rx, v)]) :=
    Inputs.deliverOne_of_outstanding hkey hwaits
  have hremoved : (e.inputs.outstanding.remove key).entries = [] := by
    show e.inputs.outstanding.entries.filter _ = []
    rw [hone]
    simp
  refine ⟨?_, ?_, ?_⟩
  · exact congrArg Prod.snd hfold
  · unfold Entry.deliver
    rw [hfold]
    refine congrArg Entry.status (if_pos ⟨hstatus, ?_⟩)
    show (e.inputs.outstanding.remove key).entries.isEmpty = true
    rw [hremoved]
    rfl
  · rw [Entry.deliver_inputs, hfold]
    exact hremoved

/-- The client answers the request that stands, as it does inline. -/
theorem Coupled.update (hc : Coupled x whole s e known asked) (hanswers : Answered x whole)
    {now nowWall : Nat} {responses : Map} {answered : List String}
    {k : Except ClientError Value → Drive (Option DriveEnd)}
    (hstatus : (known.view.get "status").bind Value.asStr = some "input_required")
    (hanswer : answerNew x.client known.requests known.answered [] = .ok (answered, responses))
    (hne : responses ≠ [])
    (hfollows : ∀ reply, Program.Follows (watching x.builder x.version (some x.client) x.id)
      (known.learn (some x.client) "tasks/update" reply) (k reply)
      fun known ending => known.Ends x.builder x.version (some x.client) x.id ending)
    (hstays : ((TasksExtension.dispatch x.rfc3339 now nowWall s.timeline.store "tasks/update"
      (updateParams x.builder x.version x.id responses)).1.inner.get x.id).isSome = true) :
    ∃ e' asked', Coupled x whole
      { s with
        timeline :=
          { s.timeline with
            store := (TasksExtension.dispatch x.rfc3339 now nowWall s.timeline.store
              "tasks/update" (updateParams x.builder x.version x.id responses)).1 }
        client := k (replyOf (TasksExtension.dispatch x.rfc3339 now nowWall s.timeline.store
          "tasks/update" (updateParams x.builder x.version x.id responses)).2)
        responses := s.responses ++
          sentIn "tasks/update" (updateParams x.builder x.version x.id responses) } e'
      { known with answered } asked' := by
  obtain ⟨hstore, hstep, hpurged, hget⟩ := hc.entry_request (callOf_update responses) rfl hstays
  rw [hstore, dispatch_update hpurged]
  cases hc.shows with
  | working h =>
      rw [h] at hstatus
      exact absurd (Option.some.inj hstatus) (by decide)
  | ended hwhole h => exact absurd (h known.answered) (lookAt_of_new hstatus hanswer hne _)
  | @asking key request _ hone hmem hnew =>
      obtain ⟨v, hv, hnotnull⟩ := hanswers request hmem
      have hkey : key ∉ known.answered := by
        intro hkey
        rw [hone, answerNew_known hkey] at hanswer
        obtain ⟨-, rfl⟩ := Prod.mk.inj (Except.ok.inj hanswer)
        exact hne rfl
      rw [hone, answerNew_one hkey hv] at hanswer
      obtain ⟨rfl, rfl⟩ := Prod.mk.inj (Except.ok.inj hanswer)
      have hout := hnew.resolve_left hkey
      obtain ⟨rx, k', hhandler, hasks, hwaits, hrest⟩ := hc.phase.of_outstanding hout
      obtain ⟨hsends, hworks, hnone⟩ := deliver_one hasks hout hwaits now nowWall x.id v
      have hsent := Timeline.sent_step hstep
      rw [show DraftTaskStore.Call.task _ = x.id from rfl, hpurged] at hsent
      have hused : key ∈ e.inputs.used :=
        hc.tracked.used _ (hc.tracked.waits x.id e hc.entry key rx hwaits).1 e hc.entry
      have husedAfter := hc.tracked.used_subset hc.entry
        ⟨now, nowWall, .deliverInputs x.id [(key, v)]⟩
      refine ⟨e.deliver nowWall [(key, v)], asked ++ [request], ?_⟩
      constructor
      · exact Timeline.tracked_step hstep hc.tracked
      · exact hget
      · exact (Entry.after_cancel e ⟨now, nowWall, .deliverInputs x.id [(key, v)]⟩).trans hc.cancel
      · show Phase x whole _ _ _ s.handler
        rw [hhandler]
        refine .answered hworks hnone (v := v) ?_ ?_
        · rw [hsent]
          refine List.mem_append_right _ ?_
          rw [Option.map_some, Option.getD_some, hsends]
          exact List.mem_singleton_self _
        · rw [sendAndAwait_ok hv, if_neg hnotnull] at hrest
          exact hrest
      · have hlearn := hfollows (.ok TasksExtension.ack)
        rw [learn_update (by rw [hone]; exact answerNew_one hkey hv)] at hlearn
        exact hlearn
      · exact hc.accepted
      · exact fun key' hkey' => husedAfter (List.cons_subset.mpr ⟨hused, hc.used⟩ hkey')
      · exact .asking hstatus hone hmem (.inl List.mem_cons_self)
      · rw [List.map_append, List.map_append, hc.responses]
        refine congrArg _ ?_
        show [Except.ok v] = [answerInput x.client request]
        rw [hv]

/-! ## Whole runs -/

/-- **One step**: the two sides stay coupled. -/
theorem coupled_step {a : Act} (h : Step x s a t) (hkept : Kept x s) (hkept' : Kept x t)
    (hanswers : Answered x whole) (hc : ∃ e known asked, Coupled x whole s e known asked) :
    ∃ e known asked, Coupled x whole t e known asked := by
  obtain ⟨e, known, asked, hc⟩ := hc
  cases h with
  | publish hhandler htimeline =>
      obtain ⟨hrx, hc'⟩ := hc.publish hhandler htimeline hkept'.present
      rw [hrx]
      exact ⟨_, known, asked, hc'⟩
  | resume hhandler hobtains => exact ⟨e, known, asked, hc.resume hkept hhandler hobtains⟩
  | complete hhandler htimeline =>
      exact ⟨_, known, asked, hc.complete hhandler htimeline hkept'.present⟩
  | request hclient =>
      have hfollows := hc.follows
      rw [hclient] at hfollows
      obtain ⟨hallows, hfollows⟩ := hfollows
      rcases hallows with ⟨rfl, rfl⟩ |
        ⟨c, answered, responses, hsome, rfl, hstatus, hanswer, hne, rfl⟩
      · exact ⟨e, _, asked, hc.poll hfollows hkept'.present⟩
      · cases hsome
        obtain ⟨e', asked', hc'⟩ :=
          hc.update hanswers hstatus hanswer hne hfollows hkept'.present
        exact ⟨e', _, asked', hc'⟩
  | clock hclient =>
      have hfollows := hc.follows
      rw [hclient] at hfollows
      exact ⟨e, known, asked, { hc with follows := hfollows.2 _ }⟩
  | sleep hclient =>
      have hfollows := hc.follows
      rw [hclient] at hfollows
      exact ⟨e, known, asked, { hc with follows := hfollows.2 () }⟩
  | other hforeign htimeline => exact ⟨e, known, asked, hc.other hforeign htimeline hkept'⟩

/-- A task just created. -/
theorem coupled_start {p : Obtaining (Except McpError N)} (h : Begins x p s) :
    ∃ e known asked, Coupled x (p.exec (obtainInline x.client) []) s e known asked := by
  cases h with
  | @intro capacity before hbefore now nowWall ttlMs pollIntervalMs hcreated rounds =>
      refine ⟨.fresh now nowWall ttlMs pollIntervalMs x.cancel,
        ⟨[], created x (.fresh now nowWall ttlMs pollIntervalMs x.cancel), none⟩, [], ?_⟩
      constructor
      · exact Timeline.tracked_of_run hbefore _ (final_mem_states _ before)
      · exact hcreated
      · rfl
      · exact .running rfl rfl rfl
      · exact follows_driveTask rounds rfl
      · rfl
      · exact List.nil_subset _
      · exact .working rfl
      · rfl

/-- What the client has answered so far, and what it ends with. -/
structure Agrees (x : Setting N) (whole : Except McpError N × List Value) (s : State N) : Prop where
  /-- Each request of the inline run is answered once, in turn. -/
  answers : s.responses.map (fun r => Except.ok r.2) <+: whole.2.map (answerInput x.client)
  settled : ∀ result, s.client = .ret (some (.settled result)) →
    result = ending x.render whole.1 ∧
      s.responses.map (fun r => Except.ok r.2) = whole.2.map (answerInput x.client)

theorem Coupled.agrees (hc : Coupled x whole s e known asked) (hanswers : Answered x whole) :
    Agrees x whole s := by
  constructor
  · rw [hc.responses]
    exact hc.phase.asked_prefix.map _
  · rintro result hclient
    obtain ⟨hresult, rfl⟩ := hc.settled hanswers hclient
    exact ⟨hresult, hc.responses⟩

/-- **A task ends as its call does inline**: as long as it is neither cancelled nor gone,
in whatever order the handler, its client and others take their steps, the client answers
what the inline run asks, once each and in turn, and settles with the inline run's end. -/
theorem task_agrees_inline {handle inline : ClientHandle} (hmode : handle.mode = .taskMediated)
    (hinline : inline.mode.available = true)
    (hcaps : handle.clientCapabilities = inline.clientCapabilities) {texts : Texts} {h : Handler N}
    (hanswers : Answered x (inlineRun inline texts x.client h))
    (hs : Begins x (h.each handle texts) s) {tr : List (Act × State N)} (hrun : Run (Step x) s tr)
    (hkept : ∀ t ∈ states s tr, Kept x t) :
    ∀ t ∈ states s tr, Agrees x (inlineRun inline texts x.client h) t := by
  have hm : handle.mode.available = true := by
    rw [hmode]
    rfl
  obtain ⟨hend, hasked⟩ := inlineRun_congr (c := x.client) hm hinline hcaps texts h
  -- the requests of the two handles differ, their answers do not
  have hanswers' : Answered x (inlineRun handle texts x.client h) := by
    intro request hrequest
    have hmem := List.mem_map_of_mem (f := answerInput x.client) hrequest
    rw [hasked] at hmem
    obtain ⟨request', hrequest', heq⟩ := List.mem_map.mp hmem
    rw [← heq]
    exact hanswers request' hrequest'
  have hcoupled : ∀ t ∈ states s tr, ∃ e known asked,
      Coupled x (inlineRun handle texts x.client h) t e known asked := by
    refine invariant_of_steps (coupled_start hs) ?_
    intro y hy hc
    exact coupled_step (hrun y hy) (hkept _ (source_mem_states hy)) (hkept _ (target_mem_states hy))
      hanswers' hc
  intro t ht
  obtain ⟨e, known, asked, hc⟩ := hcoupled t ht
  obtain ⟨hpart, hsettled⟩ := hc.agrees hanswers'
  rw [hasked] at hpart hsettled
  rw [hend] at hsettled
  exact ⟨hpart, hsettled⟩

end

/-! ## Two forms over a task -/

def greetTask : Setting Unit where
  rfc3339 _ := ""
  id := "t"
  cancel := 0
  render _ := .object [("resultType", .string "complete")]
  builder := elicitingClient
  version := .draft
  client := acceptingHandler

def greetBefore : List (DraftTaskStore.Call × Timeline) :=
  trace Timeline.next (Timeline.initial 1) [⟨0, 0, .create "t" none none 0⟩]

def greetStart : State Unit :=
  start greetTask (final (Timeline.initial 1) greetBefore) (.fresh 0 0 none none 0)
    (askNameAndCity.each ⟨.taskMediated, elicitingCaps⟩ sampleTexts) 4

def accepted : Except McpError Value :=
  .ok (.object [("action", .string "accept"), ("content", .object [])])

/-- The client polls twice in vain, once before the first answer is taken and once before
the end is in the store. -/
def greetRun : List (Act × State Unit) :=
  trace (next greetTask) greetStart
    [.publish 1 1 1, .client 1 1 1, .client 1 1 1, .client 2 2 2, .client 2 2 2,
      .resume accepted, .publish 2 2 2, .client 3 3 3, .client 3 3 3, .resume accepted,
      .client 3 3 3, .complete 3 3, .client 3 3 3]

instance (x : Setting N) (s : State N) : Decidable (Kept x s) :=
  decidable_of_iff ((s.timeline.store.inner.get x.id).isSome = true ∧
    x.cancel ∉ s.timeline.store.fired) ⟨fun h => ⟨h.1, h.2⟩, fun h => ⟨h.1, h.2⟩⟩

/-- How the client has ended, where it has. -/
def State.ended (s : State N) : Option DriveEnd :=
  match s.client with
  | .ret e => e
  | .call _ _ => none

/-- The two forms, which the draft's rounds never get past, are answered over a task. -/
theorem two_forms_over_task :
    (final greetStart greetRun).ended =
        some (.settled (.ok (.object [("resultType", .string "complete")]))) ∧
      Agrees greetTask (inlineRun ⟨.bidi "session" "connection", elicitingCaps⟩ sampleTexts
        acceptingHandler askNameAndCity) (final greetStart greetRun) := by
  have hanswers : Answered greetTask (inlineRun ⟨.bidi "session" "connection", elicitingCaps⟩
      sampleTexts acceptingHandler askNameAndCity) := by
    intro request hmem
    have hasked : (inlineRun ⟨.bidi "session" "connection", elicitingCaps⟩ sampleTexts
        acceptingHandler askNameAndCity).2 =
          [elicitRequestValue nameForm, elicitRequestValue cityForm] := by
      decide +kernel
    rw [hasked] at hmem
    rcases List.mem_cons.mp hmem with rfl | hmem
    · exact ⟨_, answerInput_elicit _ _, elicitOutcomeValue_ne_null _⟩
    · rw [List.mem_singleton.mp hmem]
      exact ⟨_, answerInput_elicit _ _, elicitOutcomeValue_ne_null _⟩
  have hbefore : Run Timeline.Step (Timeline.initial 1) greetBefore :=
    run_trace_of_checked Timeline.step_next (by decide)
  have hbegins : Begins greetTask (askNameAndCity.each ⟨.taskMediated, elicitingCaps⟩ sampleTexts)
      greetStart := @Begins.intro _ greetTask _ 1 greetBefore hbefore 0 0 none none rfl 4
  have hrun : Run (Step greetTask) greetStart greetRun :=
    run_trace_of_checked (step_next greetTask) (by decide +kernel)
  refine ⟨by decide +kernel, ?_⟩
  have hmode : (⟨.taskMediated, elicitingCaps⟩ : ClientHandle).mode = .taskMediated := rfl
  have hinline :
      (⟨.bidi "session" "connection", elicitingCaps⟩ : ClientHandle).mode.available = true := rfl
  exact task_agrees_inline hmode hinline rfl hanswers hbegins hrun (by decide +kernel) _
    (final_mem_states _ _)

end Mediation

end TurboMcp.System
