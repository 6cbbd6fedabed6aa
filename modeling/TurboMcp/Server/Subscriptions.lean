import TurboMcp.Server.Dispatcher
import TurboMcp.Service.Outbound

/-!
# Subscriptions

The registry of live `subscriptions/listen` streams, the delivery routes of
legacy sessions, and the notifications published to both.  Every function here
is one critical section, or computes with what a section returned.
-/

namespace TurboMcp.Server

open TurboMcp.Core TurboMcp.Lib

/-! ## What is published -/

/-- The list-changed notification kinds. -/
inductive ListChangedKind
  | tools
  | resources
  | prompts
  deriving DecidableEq, Repr

namespace methods

def toolsListChanged := "notifications/tools/list_changed"
def resourcesListChanged := "notifications/resources/list_changed"
def promptsListChanged := "notifications/prompts/list_changed"
def resourcesUpdated := "notifications/resources/updated"

end methods

def ListChangedKind.method : ListChangedKind → String
  | tools => methods.toolsListChanged
  | resources => methods.resourcesListChanged
  | prompts => methods.promptsListChanged

def ListChangedKind.wants (kind : ListChangedKind) (filter : SubscriptionFilter) : Bool :=
  match kind with
  | tools => filter.toolsListChanged = some true
  | resources => filter.resourcesListChanged = some true
  | prompts => filter.promptsListChanged = some true

/-- An event the `ServerNotifier` publishes. -/
inductive Publication
  | listChanged (kind : ListChangedKind)
  | resourceUpdated (uri : String)
  deriving DecidableEq

namespace Publication

def method : Publication → String
  | listChanged kind => kind.method
  | resourceUpdated _ => methods.resourcesUpdated

/-- The extra parameter of the notification. -/
def extra : Publication → Option (String × Value)
  | listChanged _ => none
  | resourceUpdated uri => some ("uri", .string uri)

/-- Which draft subscriptions get it. -/
def wants : Publication → SubscriptionFilter → Bool
  | listChanged kind, filter => kind.wants filter
  | resourceUpdated uri, filter => filter.resourceSubscriptions.contains uri

/-- A draft notification, stamped with its subscription's id. -/
def notification (p : Publication) (id : RequestId) : JsonRpcMessage :=
  .notification
    { method := p.method
      params := some (.object
        ([("_meta", .object [(Meta.keys.subscriptionId, subscriptionIdValue id)])] ++
          p.extra.toList)) }

/-- The legacy wire has no subscription id. -/
def legacyNotification (p : Publication) : JsonRpcMessage :=
  .notification { method := p.method, params := p.extra.map fun e => .object [e] }

end Publication

/-- What `close_all` answers a listen request with. -/
def closeResponse (id : RequestId) : JsonRpcMessage :=
  .response (.success id (.object [("resultType", .string "complete"),
    ("_meta", .object [(Meta.keys.subscriptionId, subscriptionIdValue id)])]))

/-- The first message of a listen stream. -/
def acknowledgement (id : RequestId) (filters : Map) : JsonRpcMessage :=
  .notification
    { method := methods.subscriptionsAcknowledged
      params := some (.object
        [("_meta", .object [(Meta.keys.subscriptionId, subscriptionIdValue id)]),
          ("notifications", .object filters)]) }

/-! ### Stamps -/

/-- The subscription id a message carries. -/
def subscriptionOf : JsonRpcMessage → Option Value
  | .request r => (Meta.metaObject r.params).bind (Map.get · Meta.keys.subscriptionId)
  | .notification n => (Meta.metaObject n.params).bind (Map.get · Meta.keys.subscriptionId)
  | .response r => (Meta.metaObject r.result).bind (Map.get · Meta.keys.subscriptionId)

/-- The message carries the id of the listen request. -/
def ForSubscription (id : RequestId) (msg : JsonRpcMessage) : Prop :=
  subscriptionOf msg = some (subscriptionIdValue id)

instance (id : RequestId) (msg : JsonRpcMessage) : Decidable (ForSubscription id msg) :=
  inferInstanceAs (Decidable (_ = _))

def isAcknowledgement : JsonRpcMessage → Bool
  | .notification n => n.method = methods.subscriptionsAcknowledged
  | _ => false

theorem subscriptionIdValue_injective : Function.Injective subscriptionIdValue := by
  intro a b h
  cases a <;> cases b <;> simp_all [subscriptionIdValue]

theorem ForSubscription.unique {id id' : RequestId} {msg : JsonRpcMessage}
    (h : ForSubscription id msg) (h' : ForSubscription id' msg) : id = id' :=
  subscriptionIdValue_injective (Option.some.inj (h.symm.trans h'))

theorem forSubscription_notification (p : Publication) (id : RequestId) :
    ForSubscription id (p.notification id) := by
  simp [ForSubscription, subscriptionOf, Publication.notification, Meta.metaObject, Map.get]

theorem forSubscription_closeResponse (id : RequestId) : ForSubscription id (closeResponse id) := by
  simp [ForSubscription, subscriptionOf, closeResponse, JsonRpcResponse.success, Meta.metaObject,
    Map.get]

theorem closeResponse_injective : Function.Injective closeResponse := fun id id' h =>
  (forSubscription_closeResponse id).unique (h ▸ forSubscription_closeResponse id')

theorem forSubscription_acknowledgement (id : RequestId) (filters : Map) :
    ForSubscription id (acknowledgement id filters) := by
  simp [ForSubscription, subscriptionOf, acknowledgement, Meta.metaObject, Map.get]

theorem subscription_legacyNotification (p : Publication) :
    subscriptionOf p.legacyNotification = none := by
  cases p <;>
    simp [subscriptionOf, Publication.legacyNotification, Publication.extra, Meta.metaObject,
      Map.get]

theorem isAcknowledgement_notification (p : Publication) (id : RequestId) :
    isAcknowledgement (p.notification id) = false := by
  cases p with
  | listChanged kind => cases kind <;> rfl
  | resourceUpdated uri => rfl

/-! ## Draft subscriptions -/

/-- A listen request, by its connection and id. -/
abbrev SubscriptionKey := String × RequestId

/-- `SubscriptionRegistry::inner`. -/
abbrev Subscriptions := Dict SubscriptionKey SubscriptionFilter

namespace Subscriptions

/-- The subscriptions a publication goes to: `publish`'s first section. -/
def targets (subs : Subscriptions) (p : Publication) : List SubscriptionKey :=
  (subs.entries.filter fun e => p.wants e.2).map Prod.fst

/-- Take every subscription out: `close_all`'s first section. -/
def drain (subs : Subscriptions) : Subscriptions × List SubscriptionKey :=
  (Dict.empty, subs.keys)

/-- The targets are all subscriptions that want the publication. -/
theorem mem_targets {subs : Subscriptions} {p : Publication} {key : SubscriptionKey} :
    key ∈ subs.targets p ↔ ∃ filter, subs.get key = some filter ∧ p.wants filter = true := by
  unfold targets
  rw [List.mem_map]
  constructor
  · rintro ⟨⟨_, filter⟩, he, rfl⟩
    obtain ⟨hmem, hwants⟩ := List.mem_filter.mp he
    exact ⟨filter, (Dict.get_eq_some_iff ..).mpr hmem, hwants⟩
  · rintro ⟨filter, hget, hwants⟩
    exact ⟨(key, filter), List.mem_filter.mpr ⟨(Dict.get_eq_some_iff ..).mp hget, hwants⟩, rfl⟩

theorem mem_keys_of_mem_targets {subs : Subscriptions} {p : Publication}
    {key : SubscriptionKey} (h : key ∈ subs.targets p) : key ∈ subs.keys := by
  obtain ⟨filter, hget, -⟩ := mem_targets.mp h
  rw [Dict.mem_keys, hget]
  rfl

end Subscriptions

/-! ## Legacy routes -/

/-- Where a legacy session's messages go, and the URIs it subscribed to. The
connection is empty for an HTTP-only session. -/
structure LegacyRoute where
  connection : String
  uris : List String
  deriving DecidableEq

def maxLegacyRoutes : Nat := 4096

/-- `SubscriptionRegistry::legacy`, by session id. -/
abbrev LegacyRoutes := Dict String LegacyRoute

namespace LegacyRoutes

/-- The route `legacy_touch` drops to make room: the first of the table's
iteration, `pick` where it is in the table. -/
def evicted (routes : LegacyRoutes) (pick session : String) : Option String :=
  if (routes.get session).isNone ∧ maxLegacyRoutes ≤ routes.len then
    if pick ∈ routes.keys then some pick else routes.keys.head?
  else none

/-- Record or refresh where a session's messages can be delivered. -/
def legacyTouch (routes : LegacyRoutes) (pick session : String) (connection : Option String) :
    LegacyRoutes :=
  let routes := match routes.evicted pick session with
    | some victim => routes.remove victim
    | none => routes
  let route := (routes.get session).getD { connection := "", uris := [] }
  routes.insert session
    (match connection with
      | some conn => { route with connection := conn }
      | none => route)

/-- The second section of `legacy_subscribe`; `none` where `expect` panics. -/
def insertUri (routes : LegacyRoutes) (session uri : String) : Option LegacyRoutes :=
  (routes.get session).map fun route =>
    routes.insert session { route with uris := route.uris.insert uri }

def legacyUnsubscribe (routes : LegacyRoutes) (session uri : String) : LegacyRoutes :=
  match routes.get session with
  | none => routes
  | some route => routes.insert session { route with uris := route.uris.erase uri }

def legacyRemove (routes : LegacyRoutes) (session : String) : LegacyRoutes :=
  routes.remove session

/-- Whether a legacy route gets a publication: list changes have no filter. -/
def wants : Publication → LegacyRoute → Bool
  | .listChanged _, _ => true
  | .resourceUpdated uri, route => route.uris.contains uri

/-- The sessions a publication goes to, each with its connection:
`publish_legacy`'s first section. -/
def targets (routes : LegacyRoutes) (p : Publication) : List (String × String) :=
  (routes.entries.filter fun e => wants p e.2).map fun e => (e.1, e.2.connection)

/-- The targets are all routes that want the publication. -/
theorem mem_targets {routes : LegacyRoutes} {p : Publication} {session connection : String} :
    (session, connection) ∈ routes.targets p ↔
      ∃ route, routes.get session = some route ∧ wants p route = true ∧
        route.connection = connection := by
  unfold targets
  rw [List.mem_map]
  constructor
  · rintro ⟨⟨sid, route⟩, he, heq⟩
    obtain ⟨hmem, hwants⟩ := List.mem_filter.mp he
    cases heq
    exact ⟨route, (Dict.get_eq_some_iff ..).mpr hmem, hwants, rfl⟩
  · rintro ⟨route, hget, hwants, rfl⟩
    refine ⟨(session, route), List.mem_filter.mpr ⟨?_, hwants⟩, rfl⟩
    exact (Dict.get_eq_some_iff ..).mp hget

/-! ### Which sessions have a route -/

theorem mem_keys_legacyTouch (routes : LegacyRoutes) (pick session : String)
    (connection : Option String) (sid : String) :
    sid ∈ (routes.legacyTouch pick session connection).keys ↔
      sid = session ∨ sid ∈ routes.keys ∧ routes.evicted pick session ≠ some sid := by
  unfold legacyTouch
  rw [Dict.mem_keys_insert]
  cases routes.evicted pick session with
  | none => simp
  | some victim =>
      simp only [Dict.mem_keys_remove, ne_eq, Option.some.injEq]
      rw [and_comm, eq_comm]
      simp [eq_comm]

theorem insertUri_isSome (routes : LegacyRoutes) (session uri : String) :
    (routes.insertUri session uri).isSome ↔ session ∈ routes.keys := by
  rw [insertUri, Option.isSome_map, Dict.mem_keys]

theorem mem_keys_insertUri {routes routes' : LegacyRoutes} {session uri : String}
    (h : routes.insertUri session uri = some routes') (sid : String) :
    sid ∈ routes'.keys ↔ sid ∈ routes.keys := by
  have hsome : session ∈ routes.keys := by
    rw [← insertUri_isSome routes session uri, h]
    rfl
  unfold insertUri at h
  rw [Option.map_eq_some_iff] at h
  obtain ⟨route, -, rfl⟩ := h
  rw [Dict.mem_keys_insert]
  constructor
  · rintro (rfl | h)
    · exact hsome
    · exact h
  · exact Or.inr

theorem mem_keys_legacyUnsubscribe (routes : LegacyRoutes) (session uri sid : String) :
    sid ∈ (routes.legacyUnsubscribe session uri).keys ↔ sid ∈ routes.keys := by
  unfold legacyUnsubscribe
  cases hget : routes.get session with
  | none => exact Iff.rfl
  | some route =>
      rw [Dict.mem_keys_insert]
      constructor
      · rintro (rfl | h)
        · rw [Dict.mem_keys, hget]
          rfl
        · exact h
      · exact Or.inr

theorem mem_keys_legacyRemove (routes : LegacyRoutes) (session sid : String) :
    sid ∈ (routes.legacyRemove session).keys ↔ sid ≠ session ∧ sid ∈ routes.keys :=
  Dict.mem_keys_remove ..

theorem mem_keys_of_mem_targets {routes : LegacyRoutes} {p : Publication}
    {t : String × String} (h : t ∈ routes.targets p) : t.1 ∈ routes.keys := by
  obtain ⟨route, hget, -⟩ := mem_targets.mp h
  rw [Dict.mem_keys, hget]
  rfl

end LegacyRoutes

end TurboMcp.Server
