import Cnetmod.Mqtt.Source.Persistence
import Cnetmod.Mqtt.Spec.BrokerRuns
import Cnetmod.Mqtt.Spec.PacketIds
import Cnetmod.Mqtt.Spec.RetainedIndex

/-!
# Saving and loading

What comes back of a session that is saved: its subscriptions without their
identifiers, its messages, its will, and neither the QoS 2 messages it holds back nor
the marks on the packet identifiers in use.
-/
namespace Cnetmod.Mqtt

open List RetainedStore

open Coding (Bytes SortedMap Document DocumentFormat)
open Coding.SortedMap

lemma PropertyId.ofCode_code (id : PropertyId) : ofCode id.code = id := by cases id <;> rfl

@[simp] lemma Qos.ofCode_code (qos : Qos) : ofCode qos.code = qos := by cases qos <;> rfl

@[simp] lemma RetainHandling.ofCode_code (rh : RetainHandling) : ofCode rh.code = rh := by cases rh <;> rfl

@[simp] lemma ProtocolVersion.ofCode_code (ver : ProtocolVersion) : ofCode ver.code = ver := by
  cases ver <;> rfl

@[simp] lemma ExpectedAck.ofCode_code (ack : ExpectedAck) : ofCode (ack.code % 256) = ack := by
  cases ack <;> rfl

lemma propFromJson_propToJson (p : MqttProperty) : propFromJson (propToJson p) = p := by
  obtain ⟨id, v⟩ := p
  have hs : PropertyId.ofCode id.code = id := PropertyId.ofCode_code id
  cases v with
  | u8 v => exact congrArg₂ MqttProperty.mk hs (congrArg PropertyValue.u8 (UInt8.ofNat_toNat))
  | u16 v => exact congrArg₂ MqttProperty.mk hs (congrArg PropertyValue.u16 (UInt16.ofNat_toNat))
  | u32 v => exact congrArg₂ MqttProperty.mk hs (congrArg PropertyValue.u32 (UInt32.ofNat_toNat))
  | str v | pair key v => exact congrArg₂ MqttProperty.mk hs rfl

lemma propsFromJson_eq (hf : object.elements "props" = props.map propToJson) : propsFromJson object = props := by
  rw [propsFromJson, hf, map_map]
  exact (map_congr_left fun p _ => propFromJson_propToJson p).trans (map_id props)

lemma willFromJson_willToJson (v : Will) : willFromJson (willToJson v) = v := by
  have hp : propsFromJson (willToJson v) = v.props := propsFromJson_eq rfl
  have qos : Qos.ofCode v.qosValue.code = v.qosValue := Qos.ofCode_code _
  rw [willFromJson, hp]
  exact congrArg (fun q => { v with qosValue := q }) qos

lemma subFromJson_subToJson (v : SubscribeEntry) : subFromJson (subToJson v) = { v with subscriptionId := 0 } := by
  have qos : Qos.ofCode v.maxQos.code = v.maxQos := Qos.ofCode_code _
  have rh : RetainHandling.ofCode v.rh.code = v.rh := RetainHandling.ofCode_code _
  exact congrArg₂ (fun q r => { v with maxQos := q, rh := r, subscriptionId := 0 }) qos rh

/-- A message as the file has it: without the flag and the identifier of a packet, and without the time it was queued. -/
def PublishMessage.content (value : PublishMessage) : PublishMessage :=
  { value with dup := false, packetId := 0, enqueueTime := 0 }

lemma publishFromJson_publishToJson (v : PublishMessage) : publishFromJson (publishToJson v) = v.content := by
  have hp : propsFromJson (publishToJson v) = v.props := propsFromJson_eq rfl
  have qos : Qos.ofCode v.qosValue.code = v.qosValue := Qos.ofCode_code _
  rw [publishFromJson, hp]
  exact congrArg (fun q => { v.content with qosValue := q }) qos

/-- An entry as it comes back. -/
def InflightMessage.restored (now : Int) (value : InflightMessage) : InflightMessage :=
  { value with packetId := value.packetId % 65536, msg := value.msg.content, retryCount := value.retryCount % 256, sendTime := now }

lemma inflightFromJson_inflightToJson (now : Int) (v : InflightMessage) :
    inflightFromJson now (inflightToJson v) = v.restored now := by
  have ack : ExpectedAck.ofCode (v.expectedAck.code % 256) = v.expectedAck := ExpectedAck.ofCode_code _
  have hm : publishFromJson (publishToJson v.msg) = v.msg.content := publishFromJson_publishToJson v.msg
  exact congrArg₂ (fun a m => { v.restored now with expectedAck := a, msg := m }) ack hm

lemma retainedFromJson_retainedToJson (v : RetainedMessage) : retainedFromJson (retainedToJson v) = v := by
  have hp : propsFromJson (retainedToJson v) = v.props := propsFromJson_eq rfl
  have qos : Qos.ofCode v.qosValue.code = v.qosValue := Qos.ofCode_code _
  rw [retainedFromJson, hp]
  exact congrArg (fun q => { v with qosValue := q }) qos

/-- What is to be kept of a message in flight: all but the time it was sent. -/
def InflightMessage.kept (value : InflightMessage) : Nat × PublishMessage × ExpectedAck × Nat :=
  (value.packetId, value.msg.content, value.expectedAck, value.retryCount)

/-- A session as it comes back. -/
def SessionState.restored (now : Int) (value : SessionState) : SessionState where
  clientId := value.clientId
  version := value.version
  cleanSession := value.cleanSession
  sessionExpiryInterval := value.sessionExpiryInterval % 4294967296
  nextPacketId := value.nextPacketId % 65536
  username := value.username
  subscriptions := value.subscriptions.mapValues fun entry => { entry with subscriptionId := 0 }
  offlineQueue := value.offlineQueue.map (·.content)
  inflightOut := value.inflightOut.map (·.restored now)
  willMsg := value.willMsg
  online := false

lemma subscriptions_fromJson (subs : SortedMap Bytes SubscribeEntry) : ((subs.records.map fun r => (r.1, subToJson r.2)).foldl
      (fun subs r => subs.put r.1 (subFromJson r.2)) .empty : SortedMap Bytes SubscribeEntry) =
      subs.mapValues fun e => { e with subscriptionId := 0 } := by
  refine ext (Eq.trans ?_ (records_foldl_put (subs.mapValues fun e => { e with subscriptionId := 0 }).sorted))
  rw [mapValues, foldl_map, foldl_map]
  simp only [subFromJson_subToJson]

lemma willOf_sessionToJson (v : SessionState) : willOf (sessionToJson v) = v.willMsg := by
  cases hw : v.willMsg with
  | none =>
    rw [sessionToJson, hw]
    rfl
  | some msg =>
    rw [sessionToJson, hw]
    exact congrArg some (willFromJson_willToJson msg)

lemma sessionFromJson_sessionToJson (now : Int) (v : SessionState) :
    sessionFromJson now (sessionToJson v) = v.restored now := by
  have hv : ProtocolVersion.ofCode v.version.code = v.version := ProtocolVersion.ofCode_code _
  have hq : (v.offlineQueue.map publishToJson).map publishFromJson = v.offlineQueue.map (·.content) := by
    rw [map_map]
    exact map_congr_left fun msg _ => publishFromJson_publishToJson msg
  have hi : (v.inflightOut.map inflightToJson).map (inflightFromJson now) = v.inflightOut.map (·.restored now) := by
    rw [map_map]
    exact map_congr_left fun msg _ => inflightFromJson_inflightToJson now msg
  rw [sessionFromJson, willOf_sessionToJson, SessionState.restored, ← hq, ← hi, ← subscriptions_fromJson, ← hv]
  rfl

lemma get_loadSessions (hn : ∀ val ∈ vs, val.clientId ≠ [])
    (hb : vs.Pairwise fun a b => a.clientId ≠ b.clientId) (hm : val ∈ vs) :
    (Broker.loadSessions vs).get val.clientId = some { val with online := false } := by
  induction vs using reverseRecOn with
  | nil => cases hm
  | append_singleton vs last ih =>
    obtain ⟨hr, -, ha⟩ := pairwise_append.mp hb
    rw [Broker.loadSessions, foldl_append, foldl_cons, foldl_nil, Broker.loadSession,
      if_neg (by simpa using hn last (by simp)), get_put]
    rcases mem_append.mp hm with old | new
    · rw [if_neg (ha val old last (by simp)).symm]
      exact ih (fun v hi => hn v (by simp [hi])) hr old
    · rw [mem_singleton.mp new, if_pos rfl]

section

variable {τ : Type*} (format : DocumentFormat τ) (now : Int) {sessions : SessionStore}

/-- The sessions that are saved, as they come back. -/
def restoredSessions (sessions : SessionStore) : List SessionState :=
  (sessions.records.filter (·.2.isSaved)).map (·.2.restored now)

lemma loadSessions_saveSessions (ss : SessionStore) :
    loadSessions format now (saveSessions format ss) = .ok (Broker.loadSessions (restoredSessions now ss)) := by
  rw [loadSessions, saveSessions, format.parse_write]
  simp only [map_map, restoredSessions]
  exact congrArg (fun vs => Except.ok (Broker.loadSessions vs))
    (map_congr_left fun r _ => sessionFromJson_sessionToJson now r.2)

lemma get_restoredSessions (hk : ({ sessions } : Broker).Keyed) (ho : sessions.get cid = some ss) (ha : ss.isSaved = true) :
    (Broker.loadSessions (restoredSessions now sessions)).get cid = some (ss.restored now) := by
  have key (r : Bytes × SessionState) (hi : r ∈ sessions.records.filter (·.2.isSaved)) : r.2.clientId = r.1 ∧ r.1 ≠ [] :=
    hk r.1 r.2 (get_of_mem (mem_of_mem_filter hi))
  have hn : ∀ v ∈ restoredSessions now sessions, v.clientId ≠ [] := by
    intro v hi
    obtain ⟨r, hl, rfl⟩ := mem_map.mp hi
    exact ne_of_eq_of_ne (key r hl).1 (key r hl).2
  have hb : (restoredSessions now sessions).Pairwise fun a b => a.clientId ≠ b.clientId := by
    rw [restoredSessions, pairwise_map]
    refine (sessions.sorted.filter _).imp_of_mem fun {a b} hf hs he hc => ?_
    exact he.ne ((key a hf).1.symm.trans (hc.trans (key b hs).1))
  have hm : (cid, ss) ∈ sessions.records.filter (·.2.isSaved) := mem_filter.mpr ⟨get_eq_some_iff.mp ho, ha⟩
  have hg := get_loadSessions hn hb (mem_map.mpr ⟨(cid, ss), hm, rfl⟩)
  have id : ss.clientId = cid := (key _ hm).1
  exact id ▸ hg

end

namespace SessionState

variable {ss : SessionState}

/-- The fields keep to the widths of their types. -/
structure Fits (ss : SessionState) : Prop where
  next : ss.nextPacketId < 65536
  inflight : ∀ message ∈ ss.inflightOut, message.packetId < 65536 ∧ message.retryCount < 256

/-- The other session has what this one had: the subscriptions and their options, the messages that wait and those in
flight in their order, what is pending of QoS 2, and the will; and it allocates no identifier of a message in flight. -/
structure PreservedBy (ss ss' : SessionState) : Prop where
  subscriptions : ss'.subscriptions = ss.subscriptions
  offline : ss'.offlineQueue.map (·.content) = ss.offlineQueue.map (·.content)
  inflight : ss'.inflightOut.map (·.kept) = ss.inflightOut.map (·.kept)
  received : ss'.qos2Received = ss.qos2Received
  pending : ss'.qos2PendingPublish = ss.qos2PendingPublish
  will : ss'.willMsg = ss.willMsg
  ids : ∀ k, ∀ message ∈ ss'.inflightOut, ss'.nthId k ≠ message.packetId

/-- There is nothing in the session that the file leaves out. -/
structure Restorable (ss : SessionState) : Prop where
  identifiers : ∀ filter entry, ss.subscriptions.get filter = some entry → entry.subscriptionId = 0
  received : ss.qos2Received = ∅
  pending : ss.qos2PendingPublish = .empty
  inflight : ss.inflightOut = []

lemma mapValues_eq_self_iff {subs : SortedMap Bytes SubscribeEntry} :
    (subs.mapValues fun e => { e with subscriptionId := 0 }) = subs ↔ ∀ f e, subs.get f = some e → e.subscriptionId = 0 := by
  constructor
  · intro hs f e hf
    rw [← hs, get_mapValues] at hf
    obtain ⟨old, -, rfl⟩ := Option.map_eq_some_iff.mp hf
    rfl
  intro hz
  refine ext ((map_congr_left fun r hm => ?_).trans (map_id _))
  have hz := hz r.1 r.2 (get_of_mem hm)
  exact congrArg (fun id => (r.1, { r.2 with subscriptionId := id })) hz.symm

lemma preservedBy_restored_iff (hf : ss.Fits) (now : Int) : ss.PreservedBy (ss.restored now) ↔ ss.Restorable := by
  constructor
  · intro hk
    refine ⟨mapValues_eq_self_iff.mp hk.subscriptions, hk.received.symm, hk.pending.symm, ?_⟩
    refine eq_nil_iff_forall_not_mem.mpr fun msg hm => ?_
    obtain ⟨k, hs⟩ := exists_nthId (s := ss.restored now) rfl rfl (Nat.mod_lt _ (by decide)) (hf.inflight msg hm).1
    refine hk.ids k (msg.restored now) (mem_map_of_mem hm) (hs.trans ?_)
    exact (Nat.mod_eq_of_lt (hf.inflight msg hm).1).symm
  intro clear
  refine ⟨mapValues_eq_self_iff.mpr clear.identifiers, ?_, ?_, clear.received.symm, clear.pending.symm, rfl, ?_⟩
  · rw [restored, map_map]
    rfl
  · rw [restored, clear.inflight]
    rfl
  · rw [restored, clear.inflight]
    exact fun k msg hm => absurd hm not_mem_nil

end SessionState

lemma loadMessage_sound (hs : st.Sound) (l : List RetainedMessage) : (l.foldl loadMessage st).Sound := by
  induction l generalizing st with
  | nil => exact hs
  | cons msg l ih =>
    refine ih ?_
    rw [loadMessage]
    split
    · exact hs
    · exact hs.store msg

lemma get_loadMessages {l : List RetainedMessage} (hf : ∀ msg ∈ l, msg.payload ≠ [])
    (hb : l.Pairwise fun a b => a.topic ≠ b.topic) :
    (l.foldl loadMessage {}).messages.get t = some msg ↔ msg ∈ l ∧ msg.topic = t ∧ t ≠ [] := by
  induction l using reverseRecOn with
  | nil => exact ⟨nofun, fun hi => absurd hi.1 not_mem_nil⟩
  | append_singleton l last ih =>
    obtain ⟨hr, -, ha⟩ := pairwise_append.mp hb
    rw [foldl_append, foldl_cons, foldl_nil, loadMessage]
    split
    next hu =>
      grind
    next hn =>
      rw [get_store (hf last (by simp))]
      split
      next hs => grind
      next hc => grind

/-- The messages of a store as a list. -/
def RetainedStore.list (store : RetainedStore) : List RetainedMessage := store.messages.records.map (·.2)

section

variable {τ : Type*} (format : DocumentFormat τ) {ps : RetainedStore}

lemma loadRetained_saveRetained (st : RetainedStore) :
    loadRetained format (saveRetained format st) = .ok (st.list.foldl loadMessage {}) := by
  rw [loadRetained, saveRetained, format.parse_write]
  simp only [map_map, list]
  exact congrArg (fun vs : List RetainedMessage => Except.ok (vs.foldl loadMessage {}))
    (map_congr_left fun r _ => retainedFromJson_retainedToJson r.2)

lemma get_loaded (ho : ps.Sound) :
    (ps.list.foldl loadMessage {}).messages.get t = some msg ↔ ps.messages.get t = some msg ∧ t ≠ [] := by
  have key (r : Bytes × RetainedMessage) (hi : r ∈ ps.messages.records) : r.2.topic = r.1 ∧ r.2.payload ≠ [] :=
    ho.own r.1 r.2 (get_of_mem hi)
  rw [get_loadMessages]
  · constructor
    · rintro ⟨hm, hs, hn⟩
      obtain ⟨r, hi, rfl⟩ := mem_map.mp hm
      rw [← hs, (key r hi).1]
      exact ⟨get_of_mem hi, by rwa [← (key r hi).1, hs]⟩
    · rintro ⟨hf, hn⟩
      exact ⟨mem_map.mpr ⟨_, get_eq_some_iff.mp hf, rfl⟩, (ho.own t msg hf).1, hn⟩
  · intro msg hm
    obtain ⟨r, hi, rfl⟩ := mem_map.mp hm
    exact (key r hi).2
  rw [list, pairwise_map]
  refine ps.messages.sorted.imp_of_mem fun {a b} ha he hl hs => ?_
  exact hl.ne ((key a ha).1.symm.trans (hs.trans (key b he).1))

lemma matching_loaded_iff (hs : ps.Sound) :
    (∀ f, (ps.list.foldl loadMessage {}).matching f = ps.matching f) ↔ ps.messages.get [] = none := by
  have ho : (ps.list.foldl loadMessage {}).Sound := loadMessage_sound .new _
  constructor
  · intro hb
    have hh := hb []
    rw [ho.matching_nil, hs.matching_nil] at hh
    have hg : (ps.list.foldl loadMessage {}).messages.get [] = none := by
      refine Option.eq_none_iff_forall_ne_some.mpr fun msg hf => ?_
      exact ((get_loaded hs).mp hf).2 rfl
    rw [hg] at hh
    exact Option.toList_eq_nil_iff.mp hh.symm
  intro ha f
  have hb : (ps.list.foldl loadMessage {}).root = ps.root := by
    refine ho.ext hs fun t => Option.ext fun msg => (get_loaded hs).trans ?_
    refine and_iff_left_of_imp fun hf hn => ?_
    rw [hn, ha] at hf
    cases hf
  rw [matching, matching, hb]

end

/-- Saved and loaded, every session that is saved is preserved exactly when there is nothing in it that the file leaves out,
and matching finds the same retained messages exactly when none of them has an empty topic. -/
theorem load_save_preserves_iff {τ : Type*} (format : DocumentFormat τ) (now : Int) {sessions : SessionStore}
    (keyed : ({ sessions } : Broker).Keyed) (fits : ∀ cid ss, sessions.get cid = some ss → ss.Fits)
    (history : List RetainedMessage) : ∃ sessions' retained',
      loadSessions format now (saveSessions format sessions) = .ok sessions' ∧
      loadRetained format (saveRetained format (history.foldl RetainedStore.store {})) = .ok retained' ∧
      ((∀ cid ss, sessions.get cid = some ss → ss.isSaved = true → ∃ ss', sessions'.get cid = some ss' ∧ ss.PreservedBy ss') ↔
        ∀ cid ss, sessions.get cid = some ss → ss.isSaved = true → ss.Restorable) ∧
      ((∀ filter, retained'.matching filter = (history.foldl RetainedStore.store {}).matching filter) ↔
        (history.foldl RetainedStore.store {}).messages.get [] = none) := by
  refine ⟨_, _, loadSessions_saveSessions format now sessions, loadRetained_saveRetained format _, ?_,
    matching_loaded_iff (RetainedStore.Sound.foldl_store .new history)⟩
  refine forall_congr' fun cid => forall_congr' fun ss => forall_congr' fun hf => forall_congr' fun hs => ?_
  rw [← SessionState.preservedBy_restored_iff (fits cid ss hf) now]
  constructor
  · rintro ⟨ss', hl, hk⟩
    rw [get_restoredSessions now keyed hf hs] at hl
    exact Option.some.inj hl ▸ hk
  · exact fun hk => ⟨_, get_restoredSessions now keyed hf hs, hk⟩

/-- Documents that are their own text. -/
def plainFormat : DocumentFormat Document := ⟨id, some, fun _ => rfl⟩

/-- One session, with a subscription under an identifier, a message that waits and the messages given in flight. -/
def savedSession (subscriptionId : UInt32) (inflightOut : List InflightMessage) : SessionState :=
  { clientId := "client-a", version := .v5, cleanSession := false, sessionExpiryInterval := 3600, inflightOut
    subscriptions := SortedMap.empty.put "sensors/+/temp"
      { topicFilter := "sensors/+/temp", maxQos := .exactlyOnce, subscriptionId }
    offlineQueue := [{ topic := "sensors/a/temp", payload := "21.5", qosValue := .atLeastOnce }] }

def savedStore (subscriptionId : UInt32) (inflightOut : List InflightMessage) : SessionStore :=
  SortedMap.empty.put "client-a" (savedSession subscriptionId inflightOut)

theorem load_save_preserves_client :
    (savedStore 0 []).get "client-a" = some (savedSession 0 []) ∧
      ∃ sessions', loadSessions plainFormat 0 (saveSessions plainFormat (savedStore 0 [])) = .ok sessions' ∧
        ∃ ss', sessions'.get "client-a" = some ss' ∧ (savedSession 0 []).PreservedBy ss' := by
  have hh : (savedStore 0 []).get "client-a" = some (savedSession 0 []) := rfl
  have only {cid : Bytes} {ss : SessionState} (hf : (savedStore 0 []).get cid = some ss) :
      "client-a" = cid ∧ savedSession 0 [] = ss := by
    rw [savedStore, get_put] at hf
    split at hf
    next ha => exact ⟨ha, Option.some.inj hf⟩
    next => cases hf
  have hk : ({ sessions := savedStore 0 [] } : Broker).Keyed := by
    intro cid ss hf
    obtain ⟨rfl, rfl⟩ := only hf
    exact ⟨rfl, by decide⟩
  have hb (cid : Bytes) (ss : SessionState) (hf : (savedStore 0 []).get cid = some ss) : ss.Fits := by
    obtain ⟨-, rfl⟩ := only hf
    exact ⟨by decide, by decide⟩
  obtain ⟨sessions', -, hl, -, sessions, -⟩ := load_save_preserves_iff plainFormat 0 hk hb []
  refine ⟨hh, sessions', hl, sessions.mpr (fun cid ss hf hv => ?_) _ _ hh rfl⟩
  obtain ⟨-, rfl⟩ := only hf
  refine ⟨fun f e hs => ?_, rfl, rfl, rfl⟩
  rw [savedSession, get_put] at hs
  split at hs
  · exact (Option.some.inj hs) ▸ rfl
  · cases hs

/-- A subscription loses its identifier, and the identifier of a message in flight is given out again. -/
theorem load_drops_subscription_id :
    let sessions := savedStore 7 [{ packetId := 1, msg := { topic := "sensors/a/temp", qosValue := .atLeastOnce } }]
    let loaded := (loadSessions plainFormat 0 (saveSessions plainFormat sessions)).toOption.bind (·.get "client-a")
    (sessions.get "client-a").map (·.subscriptions.records.map (·.2.subscriptionId)) = some [7] ∧
      loaded.map (·.subscriptions.records.map (·.2.subscriptionId)) = some [0] ∧
      loaded.map (·.inflightOut.map (·.packetId)) = some [1] ∧ loaded.map (·.allocPacketId.1) = some 1 := by
  decide +kernel

end Cnetmod.Mqtt
