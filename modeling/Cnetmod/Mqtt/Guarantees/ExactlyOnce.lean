import Cnetmod.Mqtt.Source.Receiver
import Cnetmod.Mqtt.Spec.BrokerRuns

/-!
# QoS 2 from publishers

One session through all its connections: a PUBLISH is kept until the PUBREL of its
packet identifier, which hands it to `route_publish` once.
-/
namespace Cnetmod.Mqtt

open Coding (Bytes SortedMap)
open Consensus (Reached)
open List Broker Option

inductive ReceiverEvent where
  /-- A PUBLISH that passed the checks, and what was routed at once. -/
  | publish (msg : PublishMessage) (routed : Option PublishMessage)
  | refused
  | pubrel (packetId : Nat) (routed : Option PublishMessage)
  /-- A step of the broker, for this or another client. -/
  | broker
  deriving DecidableEq

inductive ReceiverCall where
  | publish (version : ProtocolVersion) (aliasRecv : TopicAliasRecv) (msg : PublishMessage)
  | pubrel (packetId : Nat)
  | broker (call : BrokerCall)

/-- The broker and what has happened on the session, the latest first. -/
structure Receiver where
  broker : Broker
  history : List ReceiverEvent := []

namespace Receiver

variable {opts : BrokerOptions} {cid : Bytes} {r r' : Receiver} {b b' : Broker} {p : Nat} {ss : SessionState}
  {msg : PublishMessage}

def putSession (r : Receiver) (cid : Bytes) (ss : SessionState) (event : ReceiverEvent) : Receiver :=
  { broker := { r.broker with sessions := r.broker.sessions.put cid ss }, history := event :: r.history }

def step (opts : BrokerOptions) (cid : Bytes) (r : Receiver) : ReceiverCall → Option Receiver
  | .publish version aliasRecv msg => (r.broker.sessions.get cid).map fun ss =>
    match checkPublish opts version aliasRecv ss.username msg with
    | .accepted msg => r.putSession cid (acceptPublish ss msg).1 (.publish msg (acceptPublish ss msg).2)
    | _ => { r with history := .refused :: r.history }
  | .pubrel packetId => (r.broker.sessions.get cid).map fun ss =>
    r.putSession cid (handlePubrel ss packetId).1 (.pubrel packetId (handlePubrel ss packetId).2)
  | .broker call => (r.broker.step call).map fun b => { broker := b, history := .broker :: r.history }

/-- The session goes on: a CONNECT of the client resumes it, and it is not removed. -/
def Resumes (cid : Bytes) (r : Receiver) : ReceiverCall → Prop
  | .broker (.connectState cd _) => cd.clientId = cid → cd.cleanSession = false
  | .broker (.cleanupRemove clientId) => clientId = cid →
      (r.broker.sessions.get cid).all (fun ss => !(ss.cleanSession && ss.sessionExpiryInterval = 0)) = true
  | .broker (.expire now) => (r.broker.sessions.get cid).all (fun ss => !ss.isExpired now) = true
  | .broker (.restart _ _) => False
  | _ => True

instance (cid : Bytes) (r : Receiver) : (call : ReceiverCall) → Decidable (Resumes cid r call)
  | .broker (.connectState _ _) => inferInstanceAs (Decidable (_ → _))
  | .broker (.cleanupRemove _) => inferInstanceAs (Decidable (_ → _))
  | .broker (.expire _) => inferInstanceAs (Decidable (_ = _))
  | .broker (.restart _ _) => inferInstanceAs (Decidable False)
  | .broker (.connectRegister _ _) | .broker (.subscribe _ _) | .broker (.unsubscribe _ _)
  | .broker (.cleanupOffline _ _) | .broker (.cleanupUnregister _) | .broker (.publish _ _ _)
  | .publish _ _ _ | .pubrel _ => inferInstanceAs (Decidable True)

/-- A PUBLISH with QoS 2 and the identifier. -/
def OfCycle (p : Nat) (msg : PublishMessage) : Prop := msg.qosValue = .exactlyOnce ∧ msg.packetId = p ∧ p ≠ 0

instance (p : Nat) (msg : PublishMessage) : Decidable (OfCycle p msg) := inferInstanceAs (Decidable (_ ∧ _ ∧ _))

/-- The event is a PUBLISH of the identifier. -/
def Publishes (p : Nat) : ReceiverEvent → Prop
  | .publish msg _ => OfCycle p msg
  | _ => False

/-- The event is a PUBREL of the identifier. -/
def Releases (p : Nat) : ReceiverEvent → Prop
  | .pubrel packetId _ => packetId = p
  | _ => False

/-- The message of the cycle that is open: the latest PUBLISH of the identifier since its last PUBREL. -/
def openCycle (p : Nat) : List ReceiverEvent → Option PublishMessage
  | [] => none
  | .publish msg _ :: history => if OfCycle p msg then some msg else openCycle p history
  | .pubrel packetId _ :: history => if packetId = p then none else openCycle p history
  | .refused :: history | .broker :: history => openCycle p history

/-- What the session keeps for the identifier. -/
def pending (b : Broker) (cid : Bytes) (p : Nat) : Option PublishMessage :=
  (b.sessions.get cid).bind (·.qos2PendingPublish.get p)

lemma pending_put (hs : b'.sessions = b.sessions.put cid ss) (p : Nat) : pending b' cid p = ss.qos2PendingPublish.get p := by
  rw [pending, hs, SortedMap.get_put, if_pos rfl]
  rfl

lemma pending_of_get (hs : b'.sessions.get cid = b.sessions.get cid) (p : Nat) : pending b' cid p = pending b cid p := by
  rw [pending, pending, hs]

/-- A session takes the place of one with the same pending messages. -/
lemma pending_replace (hs : b'.sessions = b.sessions.put cid' ss')
    (hf : b.sessions.get cid' = some ss) (ha : ss'.qos2PendingPublish = ss.qos2PendingPublish) (p : Nat) :
    pending b' cid p = pending b cid p := by
  rw [pending, pending, hs, SortedMap.get_put]
  split
  next hh =>
    subst hh
    rw [hf, bind_some, bind_some, ha]
  · rfl

/-- The steps of the broker leave the pending messages of a session that goes on. -/
lemma pending_step (he : b.Keyed) (hr : Resumes cid { broker := b } (.broker call))
    (ht : b.step call = some b') (p : Nat) : pending b' cid p = pending b cid p := by
  cases call with
  | connectState cd now =>
    rw [Broker.step] at ht
    split at ht
    · cases ht
    cases ht
    have hs := b.sessions_connectState cd now
    by_cases own : cd.clientId = cid
    · subst own
      obtain ⟨exp, lim, disconnected, ha⟩ := connectSession_resumed (hr rfl) now
      rw [pending_put hs, ha, pending]
      cases b.sessions.get cd.clientId <;> rfl
    refine pending_of_get ?_ p
    rw [hs, SortedMap.get_put]
    exact if_neg own
  | connectRegister clientId conn | cleanupUnregister clientId =>
    cases ht
    rfl
  | subscribe clientId e =>
    rw [Broker.step] at ht
    split at ht
    · obtain ⟨⟨after, isNew⟩, done, rfl⟩ := map_eq_some_iff.mp ht
      obtain ⟨ss, hf, hs, -⟩ := subscribe_spec done
      exact pending_replace hs hf rfl p
    · cases ht
  | unsubscribe clientId f =>
    obtain ⟨⟨after, existed⟩, done, rfl⟩ := map_eq_some_iff.mp ht
    obtain ⟨ss, hf, hs, -⟩ := unsubscribe_spec done
    exact pending_replace hs hf rfl p
  | cleanupOffline clientId now =>
    obtain ⟨ss, hf, done⟩ := map_eq_some_iff.mp ht
    have hs : b'.sessions = b.sessions.put clientId (ss.goOffline now) := by rw [← done]
    exact pending_replace hs hf rfl p
  | cleanupRemove clientId =>
    obtain ⟨ss, hf, rfl⟩ := map_eq_some_iff.mp ht
    split
    next hb =>
      refine pending_of_get (get_foldl_removeSession [clientId] ?_ b) p
      rw [mem_singleton]
      rintro rfl
      have hk := hr rfl
      rw [hf, all_some, hb] at hk
      cases hk
    · rfl
  | expire now =>
    cases ht
    refine pending_of_get (get_foldl_removeSession _ ?_ b) p
    intro hi
    obtain ⟨⟨key, ss⟩, hm, rfl⟩ := mem_map.mp hi
    rw [mem_filter] at hm
    have hf : b.sessions.get key = some ss := SortedMap.get_of_mem hm.1
    have hk : (b.sessions.get ss.clientId).all (fun ss => !ss.isExpired now) = true := hr
    rw [(he key ss hf).1, hf] at hk
    simp [hm.2] at hk
  | restart vs now => exact absurd hr id
  | publish t qos s =>
    cases ht
    refine pending_of_get ?_ p
    rw [Broker.routeTargets]
    split
    · split <;> rfl
    · rfl

/-- What is kept for each identifier is the message of its open cycle. -/
structure Tracks (cid : Bytes) (r : Receiver) : Prop where
  keyed : r.broker.Keyed
  tracked : ∀ p, pending r.broker cid p = openCycle p r.history

lemma acceptPublish_pending (ss : SessionState) (msg : PublishMessage) (p : Nat) :
    (acceptPublish ss msg).1.qos2PendingPublish.get p = if OfCycle p msg then some msg else ss.qos2PendingPublish.get p := by
  rw [acceptPublish]
  split
  next he =>
    rw [SortedMap.get_put]
    by_cases hh : msg.packetId = p
    · rw [if_pos hh, if_pos ⟨he.1, hh, hh ▸ he.2⟩]
    · rw [if_neg hh, if_neg fun hc => hh hc.2.1]
  next ha =>
    rw [if_neg]
    rintro ⟨ht, rfl, hp⟩
    exact ha ⟨ht, hp⟩

lemma clientId_acceptPublish (ss : SessionState) (msg : PublishMessage) : (acceptPublish ss msg).1.clientId = ss.clientId := by
  rw [acceptPublish]
  split <;> rfl

lemma Tracks.step (t : Tracks cid r) (hr : Resumes cid r call) (ht : r.step opts cid call = some r') : Tracks cid r' := by
  cases call with
  | publish ver aliasRecv msg =>
    obtain ⟨ss, hf, rfl⟩ := map_eq_some_iff.mp ht
    obtain ⟨id, hn⟩ := t.keyed cid ss hf
    cases hc : checkPublish opts ver aliasRecv ss.username msg with
    | closed | dropped => exact ⟨t.keyed, t.tracked⟩
    | accepted msg =>
      refine ⟨t.keyed.put rfl hn ((clientId_acceptPublish ss msg).trans id), fun p => ?_⟩
      refine (pending_put rfl p).trans ?_
      rw [acceptPublish_pending]
      refine if_congr Iff.rfl rfl ?_
      rw [← t.tracked, pending, hf]
      rfl
  | pubrel packetId =>
    obtain ⟨ss, hf, rfl⟩ := map_eq_some_iff.mp ht
    obtain ⟨id, hn⟩ := t.keyed cid ss hf
    refine ⟨t.keyed.put rfl hn id, fun p => ?_⟩
    refine (pending_put rfl p).trans ?_
    rw [handlePubrel, SortedMap.get_delete]
    refine if_congr Iff.rfl rfl ?_
    rw [← t.tracked, pending, hf]
    rfl
  | broker call =>
    obtain ⟨b, done, rfl⟩ := map_eq_some_iff.mp ht
    refine ⟨t.keyed.step done, fun p => ?_⟩
    have hs : pending b cid p = pending r.broker cid p := pending_step t.keyed hr done p
    exact hs.trans (t.tracked p)

variable {routed : Option PublishMessage} {mid before : List ReceiverEvent}

/-- While no PUBREL of the identifier comes, its cycle is open with the latest PUBLISH. -/
lemma openCycle_latest (hc : OfCycle p hd) (hh : ∀ ev ∈ mid, ¬ Releases p ev) :
    ∃ later msg routed' earlier, mid ++ [.publish hd routed] = later ++ .publish msg routed' :: earlier ∧
      OfCycle p msg ∧ (∀ ev ∈ later, ¬ Publishes p ev) ∧ openCycle p (mid ++ .publish hd routed :: before) = some msg := by
  induction mid with
  | nil => exact ⟨[], hd, routed, [], rfl, hc, by simp, if_pos hc⟩
  | cons ev mid ih =>
    obtain ⟨later, msg, routed', earlier, split, hy, none, hl⟩ := ih fun e hm => hh e (by simp [hm])
    have hs (hq : ¬ Publishes p ev)
        (ha : openCycle p (ev :: (mid ++ .publish hd routed :: before)) =
          openCycle p (mid ++ .publish hd routed :: before)) :
        ∃ later msg routed' earlier, ev :: mid ++ [.publish hd routed] = later ++ .publish msg routed' :: earlier ∧
          OfCycle p msg ∧ (∀ ev ∈ later, ¬ Publishes p ev) ∧
          openCycle p (ev :: mid ++ .publish hd routed :: before) = some msg := by
      refine ⟨ev :: later, msg, routed', earlier, by rw [cons_append, split]; rfl, hy, ?_, ha.trans hl⟩
      intro e hm
      rcases mem_cons.mp hm with rfl | old
      · exact hq
      · exact none e old
    cases ev with
    | publish msg' routed'' =>
      by_cases own : OfCycle p msg'
      · exact ⟨[], msg', routed'', mid ++ [.publish hd routed], rfl, own, by simp, if_pos own⟩
      · exact hs own (if_neg own)
    | pubrel q routed'' =>
      have ho : q ≠ p := hh (.pubrel q routed'') (mem_cons_self ..)
      exact hs id (if_neg ho)
    | refused | broker => exact hs id rfl

/-- After a PUBREL of the identifier its cycle is closed until the next PUBLISH. -/
lemma openCycle_closed (none : ∀ ev ∈ mid, ¬ Publishes p ev) : openCycle p (mid ++ .pubrel p routed :: before) = Option.none := by
  induction mid with
  | nil => exact if_pos rfl
  | cons ev mid ih =>
    have hc := ih fun e hm => none e (by simp [hm])
    cases ev with
    | publish msg routed' =>
      have ho : ¬ OfCycle p msg := none (.publish msg routed') (mem_cons_self ..)
      exact (if_neg ho).trans hc
    | pubrel q routed' =>
      rw [cons_append, openCycle]
      split
      · rfl
      · exact hc
    | refused => exact hc
    | broker => exact hc

/-- A PUBREL routes the message of the open cycle. -/
lemma Tracks.pubrel (t : Tracks cid r) (ht : r.step opts cid (.pubrel p) = some r') :
    r'.history = .pubrel p (openCycle p r.history) :: r.history := by
  obtain ⟨ss, hf, rfl⟩ := map_eq_some_iff.mp ht
  rw [← t.tracked, pending, hf]
  rfl

end Receiver

open Receiver

/-- On one session, through any disconnects and reconnects that resume it: a PUBLISH with QoS 2 that is accepted routes
nothing; the PUBREL that ends a cycle routes one message, that of the latest PUBLISH in the cycle; and a PUBREL that
follows a PUBREL routes none. -/
theorem qos2_exactly_once {opts : BrokerOptions} {cid : Bytes} {b : Broker} {ss : SessionState} {r : Receiver}
    (keyed : b.Keyed) (found : b.sessions.get cid = some ss) (begins : ss.qos2PendingPublish = .empty)
    (reached : Reached (Receiver.step opts cid) (Resumes cid) { broker := b } r) {p : Nat} :
    (∀ version aliasRecv msg r', r.step opts cid (.publish version aliasRecv msg) = some r' →
      ∀ accepted routed, r'.history = .publish accepted routed :: r.history → OfCycle p accepted → routed = none) ∧
    (∀ r', r.step opts cid (.pubrel p) = some r' → ∀ between first routed before,
      r.history = between ++ .publish first routed :: before → OfCycle p first → (∀ event ∈ between, ¬ Releases p event) →
      ∃ later msg routed' earlier, between ++ [.publish first routed] = later ++ .publish msg routed' :: earlier ∧
        OfCycle p msg ∧ (∀ event ∈ later, ¬ Publishes p event) ∧ r'.history = .pubrel p (some msg) :: r.history) ∧
    (∀ r', r.step opts cid (.pubrel p) = some r' → ∀ between routed before,
      r.history = between ++ .pubrel p routed :: before → (∀ event ∈ between, ¬ Publishes p event) →
      r'.history = .pubrel p none :: r.history) := by
  have hf : Tracks cid { broker := b } := by
    refine ⟨keyed, fun p => ?_⟩
    rw [pending, found, bind_some, begins]
    rfl
  have t : Tracks cid r := reached.invariant (Tracks cid) hf fun before hr ht => before.step hr ht
  refine ⟨?_, ?_, ?_⟩
  · intro version aliasRecv msg r' ht accepted routed ha hc
    obtain ⟨ss, -, rfl⟩ := map_eq_some_iff.mp ht
    cases hch : checkPublish opts version aliasRecv ss.username msg with
    | closed | dropped =>
      rw [hch] at ha
      cases ha
    | accepted msg =>
      rw [hch] at ha
      cases ha
      rw [acceptPublish, if_pos ⟨hc.1, hc.2.1 ▸ hc.2.2⟩]
  · intro r' ht between first routed before split hc hh
    obtain ⟨later, msg, routed', earlier, cut, hy, none, hl⟩ := openCycle_latest hc hh
    exact ⟨later, msg, routed', earlier, cut, hy, none, by rw [t.pubrel ht, split, hl]⟩
  · intro r' ht between routed before split none
    rw [t.pubrel ht, split, openCycle_closed none]

/-- A broker with the session of the client `c`. -/
def oneSession : Broker := ({} : Broker).connectState { clientId := "c", cleanSession := false } 0 |>.1

def qos2Message (packetId : Nat) (dup : Bool) : PublishMessage :=
  { topic := "t", payload := "x", qosValue := .exactlyOnce, packetId, dup }

def qos2Publish (packetId : Nat) (dup : Bool) : ReceiverCall := .publish .v311 {} (qos2Message packetId dup)

/-- A PUBLISH, its repetition after a reconnect, and two PUBRELs: the first routes the message, the second nothing. -/
theorem qos2_exactly_once_resumed : ∃ r r', Reached (Receiver.step {} "c") (Resumes "c") { broker := oneSession } r ∧
    r.step {} "c" (.pubrel 7) = some r' ∧ r'.history = .pubrel 7 none :: r.history ∧
    r.history.head? = some (.pubrel 7 (some (qos2Message 7 true))) := by
  have run : Reached (Receiver.step {} "c") (Resumes "c") { broker := oneSession } _ := .runChecked .start
    [qos2Publish 7 false, .broker (.cleanupOffline "c" 1),
      .broker (.connectState { clientId := "c", cleanSession := false } 2), qos2Publish 7 true, .pubrel 7] rfl
  have hf : ({} : Broker).step (.connectState { clientId := "c", cleanSession := false } 0) = some oneSession := rfl
  have hk : oneSession.Keyed := Broker.Keyed.step (by rintro _ _ ⟨⟩) hf
  exact ⟨_, _, run, rfl, (qos2_exactly_once hk rfl rfl run).2.2 _ rfl [] _ _ rfl (by simp), by decide +kernel⟩

/-- A PUBLISH with the identifier 0 is routed each time it comes, and one that a rule denies is not routed by its
PUBREL. -/
theorem qos2_zero_or_denied :
    (∃ r msg, Reached (Receiver.step {} "c") (Resumes "c") { broker := oneSession } r ∧
      msg.qosValue = .exactlyOnce ∧ r.history = [.publish msg (some msg), .publish msg (some msg)]) ∧
    ∃ r, Reached (Receiver.step { security := { rules := [{ topicFilter := "t" }] } } "c") (Resumes "c")
      { broker := oneSession } r ∧ r.history = [.pubrel 7 none, .refused] := by
  refine ⟨?_, ?_⟩
  · have run : Reached (Receiver.step {} "c") (Resumes "c") { broker := oneSession } _ :=
      .runChecked .start [qos2Publish 0 false, qos2Publish 0 false] rfl
    exact ⟨_, _, run, rfl, rfl⟩
  have run : Reached (Receiver.step { security := { rules := [{ topicFilter := "t" }] } } "c")
    (Resumes "c") { broker := oneSession } _ := .runChecked .start [qos2Publish 7 false, .pubrel 7] rfl
  exact ⟨_, run, by decide +kernel⟩

end Cnetmod.Mqtt
