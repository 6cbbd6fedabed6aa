import TurboMcp.System.TaskHistory

/-!
# What a subscriber is shown

The statuses of a task that have been enqueued for a subscriber, and those that
are still to be: what a push has read, it shows to everyone it was told of,
without looking at the task again.
-/

namespace TurboMcp.System

open TurboMcp.Core TurboMcp.Lib TurboMcp.Server TurboMcp.ExtTasks

variable {N : Type} {d : VersionDispatcher N} {rfc3339 : Nat → String} {t : String}
  {sub : Subscriber} {Q : TaskStatus → Prop}

/-! ## What is shown -/

/-- A field of a notification's parameters. -/
def paramOf (n : JsonRpcNotification) (field : String) : Option Value :=
  (n.params.bind Value.asObject).bind (Map.get · field)

/-- The status of the task that a message shows. -/
def statusShown (t : String) : JsonRpcMessage → Option TaskStatus
  | .notification n =>
      if n.method = notificationsTasks ∧ paramOf n "taskId" = some (.string t) then
        ((paramOf n "status").bind Value.asStr).bind TaskStatus.ofStr
      else none
  | _ => none

/-- The statuses of a task that a subscriber has been shown, oldest first. -/
def shown (log : List Event) (t : String) (sub : Subscriber) : List TaskStatus :=
  (streamed log (Subscriber.key sub)).filterMap (statusShown t)

theorem statusShown_of_not_isStatus {m : JsonRpcMessage} (hm : isStatus m = false) :
    statusShown t m = none := by
  cases m with
  | notification n =>
      have hmethod : n.method ≠ notificationsTasks := of_decide_eq_false hm
      exact if_neg fun h => hmethod h.1
  | request r => rfl
  | response r => rfl

/-- A status's notification is an object of the task's fields, stamped. -/
theorem paramOf_statusNotification (detailed : DetailedTask) (s : Subscriber) (field : String)
    (hfield : field ≠ "_meta") {n : JsonRpcNotification}
    (hn : Proc.statusNotification rfc3339 detailed s = .notification n) :
    n.method = notificationsTasks ∧
      paramOf n field = Map.get (notificationParams rfc3339 detailed) field := by
  unfold Proc.statusNotification at hn
  cases hn
  refine ⟨rfl, ?_⟩
  show Map.get (Proc.stampSubscriptionId _ _) field = _
  unfold Proc.stampSubscriptionId
  rw [get_meta_notificationParams]
  show Map.get (Map.insert _ "_meta" _) field = _
  rw [Map.get_insert, if_neg (Ne.symm hfield)]

theorem get_taskId_notificationParams (detailed : DetailedTask) :
    Map.get (notificationParams rfc3339 detailed) "taskId" =
      some (.string detailed.task.taskId) := by
  simp [notificationParams, Task.fields, Map.get]

theorem get_status_notificationParams (detailed : DetailedTask) :
    Map.get (notificationParams rfc3339 detailed) "status" =
      some (.string detailed.task.status.asStr) := by
  simp [notificationParams, Task.fields, Map.get]

/-- **A push shows the status it read.** -/
theorem statusShown_statusNotification (detailed : DetailedTask) (s : Subscriber) :
    statusShown t (Proc.statusNotification rfc3339 detailed s) =
      if detailed.task.taskId = t then some detailed.task.status else none := by
  obtain ⟨n, hn⟩ : ∃ n, Proc.statusNotification rfc3339 detailed s = .notification n := ⟨_, rfl⟩
  obtain ⟨hmethod, htaskId⟩ :=
    paramOf_statusNotification detailed s "taskId" (by decide) hn
  obtain ⟨-, hstatus⟩ := paramOf_statusNotification detailed s "status" (by decide) hn
  rw [hn, statusShown, hmethod, htaskId, hstatus, get_taskId_notificationParams,
    get_status_notificationParams]
  simp [Value.asStr, TaskStatus.ofStr_asStr]

theorem subscriberKey_injective : Function.Injective Subscriber.key := by
  rintro ⟨connection, id⟩ ⟨connection', id'⟩ h
  cases h
  rfl

section

variable {n : Nat} {c : Choice N} {s s' : Shared} {a : Section} {r : Reply N a}

theorem shown_of_answer (h : runSection n c s a = .answer r s') :
    shown s'.log t sub =
      shown s.log t sub ++ (a.streams s (Subscriber.key sub)).filterMap (statusShown t) := by
  rw [shown, shown, streamed_of_answer h, List.filterMap_append]

theorem shown_of_not_ofPush (h : runSection n c s a = .answer r s') (ha : ¬ a.ofPush) :
    shown s'.log t sub = shown s.log t sub := by
  rw [shown_of_answer h, List.filterMap_eq_nil_iff.mpr, List.append_nil]
  intro m hm
  obtain ⟨rfl, -, -⟩ := mem_streams.mp hm
  exact statusShown_of_not_isStatus (Bool.eq_false_iff.mpr ha)

/-- A status that is enqueued is shown to the one subscriber it is for. -/
theorem shown_of_send {detailed : DetailedTask} {s₀ : Subscriber}
    (ha : a = .effect (.send s₀.connection (Proc.statusNotification rfc3339 detailed s₀)))
    (h : runSection n c s a = .answer r s') :
    shown s'.log t sub = shown s.log t sub ++
      if s₀ = sub ∧ detailed.task.taskId = t ∧ sub.connection ∉ s.closed then
        [detailed.task.status] else [] := by
  rw [shown_of_answer h]
  congr 1
  subst ha
  have hid := forSubscription_statusNotification rfc3339 detailed s₀
  by_cases hs : s₀ = sub ∧ sub.connection ∉ s.closed
  · obtain ⟨rfl, hopen⟩ := hs
    have hstreams : (Section.effect (.send s₀.connection
        (Proc.statusNotification rfc3339 detailed s₀))).streams s (Subscriber.key s₀) =
          [Proc.statusNotification rfc3339 detailed s₀] := if_pos ⟨rfl, hid, hopen⟩
    rw [hstreams, List.filterMap_cons, statusShown_statusNotification]
    by_cases ht : detailed.task.taskId = t
    · simp [ht, hopen]
    · simp [ht]
  · rw [if_neg (fun h => hs ⟨h.1, h.2.2⟩)]
    refine List.filterMap_eq_nil_iff.mpr fun m hm => ?_
    obtain ⟨heq, hid', hopen⟩ := mem_streams.mp hm
    obtain ⟨hconnection, rfl⟩ := Effect.send.inj (Section.effect.inj heq)
    have hkey : Subscriber.key s₀ = Subscriber.key sub :=
      Prod.ext hconnection (hid.unique hid')
    exact absurd ⟨subscriberKey_injective hkey, hopen⟩ hs

end

/-! ## What is still to be shown -/

/-- Without reading a task first, the program may show the subscriber a status
of the task in `Q`. -/
inductive MayShow (t : String) (sub : Subscriber) (Q : TaskStatus → Prop) : Proc N Unit → Prop
  | now {m : JsonRpcMessage} {f : TaskStatus}
      {k : Reply N (.effect (.send sub.connection m)) → Proc N Unit}
      (hm : statusShown t m = some f) (hf : Q f) (hid : ForSubscription sub.subscriptionId m) :
      MayShow t sub Q (.call (.effect (.send sub.connection m)) k)
  | later {a : Section} {k : Reply N a → Proc N Unit} {r : Reply N a} (ha : ∀ op, a ≠ .task op)
      (h : MayShow t sub Q (k r)) : MayShow t sub Q (.call a k)

/-- The program reads the task next, and may show the subscriber what it reads. -/
def Told (t : String) (sub : Subscriber) (p : Proc N Unit) : Prop :=
  ∃ k r, p = .call (.task (.get t)) k ∧ MayShow t sub (fun _ => True) (k r)

/-- What a push has read and is to show. -/
def Stage.snapshot : Stage → Option DetailedTask
  | showing detailed _ | found detailed _ _ | dropping detailed _ _ => some detailed
  | _ => none

/-- Those it is to show it to. -/
def Stage.remaining : Stage → List Subscriber
  | told _ subs | showing _ subs | dropping _ _ subs => subs
  | found _ s subs => s :: subs
  | _ => []

/-- The push has read a status of the task in `Q`, and is to show it to the
subscriber. -/
def Stage.Holds (t : String) (sub : Subscriber) (Q : TaskStatus → Prop) (st : Stage) : Prop :=
  ∃ detailed, st.snapshot = some detailed ∧ detailed.task.taskId = t ∧ Q detailed.task.status ∧
    sub ∈ st.remaining

theorem MayShow.mono {Q' : TaskStatus → Prop} {p : Proc N Unit} (h : MayShow t sub Q p)
    (hQ : ∀ f, Q f → Q' f) : MayShow t sub Q' p := by
  induction h with
  | now hm hf hid => exact .now hm (hQ _ hf) hid
  | later ha _ ih => exact .later ha ih

theorem announced_of_not_task {a : Section} (ha : ∀ op, a ≠ .task op) (r : Reply N a) :
    announced a r = none := by
  unfold announced
  split <;> first | exact absurd rfl (ha _) | rfl

/-- A task that has yet to push shows nothing before it has read a task. -/
theorem not_mayShow_of_prelude {p : Proc N Unit} (hp : Prelude rfc3339 p) :
    ¬ MayShow t sub Q p := by
  intro h
  induction h with
  | @now m f k hm hf hid =>
      refine hp.1 ?_
      show isStatus m = true
      by_contra hstatus
      rw [statusShown_of_not_isStatus (Bool.eq_false_iff.mpr hstatus)] at hm
      cases hm
  | later ha _ ih => exact ih ((hp.2 _).2 (announced_of_not_task ha _))

theorem not_told_of_prelude {p : Proc N Unit} (hp : Prelude rfc3339 p) : ¬ Told t sub p := by
  rintro ⟨k, r, rfl, h⟩
  exact not_mayShow_of_prelude ((hp.2 r).2 rfl) h

/-- **What a delivery shows** is what it read, to those that are left. -/
theorem mayShow_deliverStatus {detailed : DetailedTask} {subs : List Subscriber}
    (h : MayShow t sub Q (deliverStatus (N := N) rfc3339 detailed subs)) :
    detailed.task.taskId = t ∧ Q detailed.task.status ∧ sub ∈ subs := by
  induction subs with
  | nil => cases h
  | cons s subs ih =>
      have hdrop {k : Reply N (.dropConnection s.connection) → Proc N Unit}
          (hk : ∀ r, k r = deliverStatus rfc3339 detailed subs)
          (h : MayShow t sub Q (.call (.dropConnection s.connection) k)) :
          detailed.task.taskId = t ∧ Q detailed.task.status ∧ sub ∈ s :: subs := by
        cases h with
        | later _ h =>
            rw [hk] at h
            obtain ⟨ht, hQ, hsub⟩ := ih h
            exact ⟨ht, hQ, List.mem_cons_of_mem _ hsub⟩
      cases h with
      | @later _ _ live _ h =>
          cases (live : Bool) with
          | false => exact hdrop (fun _ => rfl) h
          | true =>
              generalize hm : Proc.statusNotification rfc3339 detailed s = m at h
              generalize hc : s.connection = connection at h
              cases h with
              | now hshown hf hid =>
                  subst hm
                  have hkey : Subscriber.key s = Subscriber.key sub :=
                    Prod.ext hc ((forSubscription_statusNotification rfc3339 detailed s).unique hid)
                  rw [statusShown_statusNotification] at hshown
                  split at hshown
                  · rename_i ht
                    cases hshown
                    obtain rfl := subscriberKey_injective hkey
                    exact ⟨ht, hf, List.mem_cons_self⟩
                  · cases hshown
              | @later _ _ sent _ h =>
                  subst hc
                  cases (sent : Bool) with
                  | true =>
                      obtain ⟨ht, hQ, hsub⟩ := ih h
                      exact ⟨ht, hQ, List.mem_cons_of_mem _ hsub⟩
                  | false => exact hdrop (fun _ => rfl) h

/-- A push may show what it has read, to those that are left. -/
theorem holds_of_mayShow {st : Stage} (h : MayShow t sub Q (st.residual (N := N) rfc3339)) :
    st.Holds t sub Q := by
  cases st with
  | owing taskId =>
      cases h with
      | @later _ _ subs _ h =>
          have htold (subs : List Subscriber) (h : MayShow t sub Q (if subs.isEmpty = true then
              Program.ret () else (Stage.told taskId subs).residual (N := N) rfc3339)) : False := by
            split at h
            · cases h
            · cases h with
              | later ha _ => exact ha _ rfl
          exact (htold subs h).elim
  | told taskId subs =>
      cases h with
      | later ha _ => exact absurd rfl (ha _)
  | showing detailed subs =>
      obtain ⟨ht, hQ, hsub⟩ := mayShow_deliverStatus h
      exact ⟨detailed, rfl, ht, hQ, hsub⟩
  | found detailed s subs =>
      -- the delivery goes on so once it has found the writer
      have hshow : MayShow t sub Q (deliverStatus (N := N) rfc3339 detailed (s :: subs)) :=
        .later (r := true) nofun h
      obtain ⟨ht, hQ, hsub⟩ := mayShow_deliverStatus hshow
      exact ⟨detailed, rfl, ht, hQ, hsub⟩
  | dropping detailed s subs =>
      cases h with
      | later _ h =>
          obtain ⟨ht, hQ, hsub⟩ := mayShow_deliverStatus h
          exact ⟨detailed, rfl, ht, hQ, hsub⟩
  | done => cases h

section

variable {n : Nat} {c : Choice N} {s s' : Shared} {a : Section} {r : Reply N a}
  {k : Reply N a → Proc N Unit}

/-- **Reading**: what a task may show once it has operated on the store is what
it has just read there. -/
theorem read_of_mayShow {op : TaskOp} (ha : a = .task op) (hstaged : Staged rfc3339 (.call a k))
    (h : runSection n c s a = .answer r s') (hm : MayShow t sub Q (k r)) :
    (∃ e, s'.tasks.inner.get t = some e ∧ Q e.status) ∧ Told t sub (.call a k) := by
  rcases hstaged with ⟨hpush, hk⟩ | ⟨st, hst⟩
  · cases hann : announced a r with
    | none => exact absurd hm (not_mayShow_of_prelude ((hk r).2 hann))
    | some taskId =>
        rw [(hk r).1 taskId hann] at hm
        obtain ⟨detailed, hsnapshot, -⟩ := holds_of_mayShow hm
        cases hsnapshot
  · obtain ⟨st', hmoves, hk⟩ := Stage.moves hst.symm r
    rw [hk] at hm
    obtain ⟨detailed, hsnapshot, ht, hQ, hsub⟩ := holds_of_mayShow hm
    cases hmoves with
    | @read taskId subs detailed =>
        cases hsnapshot
        injection h with hread hstate
        subst hstate
        obtain ⟨e, hget, rfl⟩ := Option.map_eq_some_iff.mp hread
        obtain rfl : taskId = t := ht
        refine ⟨⟨e, hget, hQ⟩, k, some (e.detailed taskId), rfl, ?_⟩
        rw [hk]
        exact hm.mono fun _ _ => trivial
    | nobody | told | missing => cases hsnapshot
    | found | lost | sent | refused | dropped => cases ha

variable (t sub) in
/-- **Showing**: only a push that has found the subscriber's writer shows it
anything, and then what it has read. -/
theorem shown_of_staged (hstaged : Staged rfc3339 (.call a k))
    (h : runSection n c s a = .answer r s') :
    shown s'.log t sub = shown s.log t sub ∨ ∃ detailed subs,
      .call a k = (Stage.found detailed sub subs).residual (N := N) rfc3339 ∧
      detailed.task.taskId = t ∧ sub.connection ∉ s.closed ∧
      k r = deliverStatus rfc3339 detailed subs ∧
      shown s'.log t sub = shown s.log t sub ++ [detailed.task.status] := by
  rcases hstaged with ⟨hpush, -⟩ | ⟨st, hst⟩
  · exact Or.inl (shown_of_not_ofPush h hpush)
  · obtain ⟨st', hmoves, hk⟩ := Stage.moves hst.symm r
    cases hmoves with
    | nobody | told | missing | read | found | lost | dropped =>
        refine Or.inl ?_
        rw [shown_of_answer h]
        exact List.append_nil _
    | @sent detailed s₀ subs =>
        rw [shown_of_send rfl h]
        by_cases hs : s₀ = sub ∧ detailed.task.taskId = t ∧ sub.connection ∉ s.closed
        · obtain ⟨rfl, ht, hopen⟩ := hs
          refine Or.inr ⟨detailed, subs, hst, ht, hopen, hk, ?_⟩
          rw [if_pos ⟨rfl, ht, hopen⟩]
        · rw [if_neg hs]
          exact Or.inl (List.append_nil _)
    | @refused detailed s₀ subs =>
        refine Or.inl ?_
        rw [shown_of_send rfl h, if_neg, List.append_nil]
        rintro ⟨rfl, -, hopen⟩
        simp only [runSection, runEffect, hopen, if_false] at h
        cases h

end

end TurboMcp.System
