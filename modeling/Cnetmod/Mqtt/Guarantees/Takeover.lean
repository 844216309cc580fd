import Cnetmod.Mqtt.Source.Connections
import Cnetmod.Mqtt.Spec.BrokerRuns

/-!
# Session takeover

A connection takes over the session of an older one of the same client. The older one
is torn down later, block by block, and every block works on the session and the entry
in `online_channels_` that the newer connection has by then.
-/
namespace Cnetmod.Mqtt

open Connection Broker Option

open Coding (Bytes ascii SortedMap)
open Consensus (Reached)
open Coding.SortedMap

inductive LiveCall where
  | connectState (conn : Nat) (cd : ConnectData) (now : Int)
  | connectRegister (conn : Nat)
  | subscribe (conn : Nat) (entry : SubscribeEntry)
  | unsubscribe (conn : Nat) (filter : Bytes)
  | close (conn : Nat)
  | disconnect (conn : Nat) (expiry : Option UInt32)
  | unexpectedDisconnect (conn : Nat)
  | finishPublishWill (conn : Nat)
  | keepAliveTimeout (conn : Nat)
  | willDelayTask (task : Nat)
  | cleanupOffline (conn : Nat) (now : Int)
  | cleanupUnregister (conn : Nat)
  | cleanupRemove (conn : Nat)
  | expire (now : Int)
  | publish (topic : Bytes) (qosValue : Qos) (sender : Bytes)

/-- The connection a step tears down. -/
def LiveCall.closing : LiveCall → Option Nat
  | close conn | disconnect conn _ | unexpectedDisconnect conn | finishPublishWill conn | keepAliveTimeout conn
  | cleanupOffline conn _ | cleanupUnregister conn | cleanupRemove conn => some conn
  | _ => none

/-- It is on its way out. -/
def Connection.closing (k : Connection) : Bool := k.cleanup.isSome || k.publishingWill

namespace LiveBroker

def step (s : LiveBroker) : LiveCall → Option LiveBroker
  | .connectState conn cd now => s.handleConnectState conn cd now
  | .connectRegister conn => s.handleConnectRegister conn
  | .subscribe conn entry => s.handleSubscribe conn entry
  | .unsubscribe conn filter => s.handleUnsubscribe conn filter
  | .close conn => s.close conn
  | .disconnect conn expiry => s.handleDisconnect conn expiry
  | .unexpectedDisconnect conn => s.handleUnexpectedDisconnect conn
  | .finishPublishWill conn => s.finishPublishWill conn
  | .keepAliveTimeout conn => s.keepAliveTimeout conn
  | .willDelayTask task => s.willDelayTask task
  | .cleanupOffline conn now => s.cleanupOffline conn now
  | .cleanupUnregister conn => s.cleanupUnregister conn
  | .cleanupRemove conn => s.cleanupRemove conn
  | .expire now => some { s with broker := s.broker.expireSessions now }
  | .publish topic qosValue sender => some { s with broker := (s.broker.routeTargets topic qosValue sender).2 }

variable {s s' : LiveBroker} {conn c : Nat} {cid : Bytes} {k k' : Connection} {ss : SessionState}

def isOpen (s : LiveBroker) (conn : Nat) : Bool := (s.connections.get conn).any (·.isOpen)

/-- Another connection has the session of `conn` and has not closed. -/
def claimed (s : LiveBroker) (conn : Nat) (clientId : Bytes) : Bool :=
  s.connections.records.any fun record => record.1 ≠ conn && record.2.clientId = clientId && record.2.isOpen

lemma claimed_iff : s.claimed conn cid = true ↔
    ∃ c k, c ≠ conn ∧ s.connections.get c = some k ∧ k.clientId = cid ∧ k.isOpen = true := by
  simp only [claimed, List.any_eq_true, Bool.and_eq_true, decide_eq_true_eq]
  constructor
  · rintro ⟨⟨c, k⟩, hm, ⟨ho, id⟩, hl⟩
    exact ⟨c, k, ho, get_of_mem hm, id, hl⟩
  · rintro ⟨c, k, ho, hf, id, hl⟩
    exact ⟨(c, k), get_eq_some_iff.mp hf, ⟨ho, id⟩, hl⟩

/-- A block of the teardown of `conn` finds nothing to spoil: when it would take the will away, take the session offline or
remove it, no other connection that is open has the session, and when it takes out the entry of the client, that is not the
entry of an open connection. -/
def spares (s : LiveBroker) (conn : Nat) (k : Connection) : LiveCall → Bool
  | .disconnect _ _ | .unexpectedDisconnect _ | .finishPublishWill _ =>
    !s.claimed conn k.clientId || (s.broker.sessions.get k.clientId).all (·.willMsg.isNone)
  | .cleanupOffline _ _ => !s.claimed conn k.clientId
  | .cleanupUnregister _ => (s.broker.onlineChannels.get k.clientId).all (!s.isOpen ·)
  | .cleanupRemove _ => !s.claimed conn k.clientId ||
    (s.broker.sessions.get k.clientId).all fun ss => !(ss.cleanSession && ss.sessionExpiryInterval = 0)
  | _ => true

def teardownSpares (s : LiveBroker) (call : LiveCall) : Bool :=
  call.closing.all fun conn => (s.connections.get conn).all fun k => s.spares conn k call

lemma teardownSpares_closing (hs : s.teardownSpares call = true) (hc : call.closing = some conn)
    (hf : s.connections.get conn = some k) : s.spares conn k call = true := by
  rwa [teardownSpares, hc, all_some, hf] at hs

/-- Open connections have a session that is online, and the one accepted last is the one the client is reached by. -/
structure Kept (s : LiveBroker) : Prop where
  keyed : s.broker.Keyed
  closing : ∀ c k, s.connections.get c = some k → k.closing = true → k.connected = false
  online : ∀ c k, s.connections.get c = some k → k.isOpen = true → s.broker.sessionOnline k.clientId = true
  registered : ∀ cid c, s.accepted.get cid = some c → ∃ k, s.connections.get c = some k ∧ k.clientId = cid ∧
    (k.isOpen = true → s.broker.onlineChannels.get cid = some c)

/-- Connections close and are torn down, and no new ones come. -/
structure Fades (s s' : LiveBroker) : Prop where
  accepted : s'.accepted = s.accepted
  there : ∀ c, (s.connections.get c).isSome → (s'.connections.get c).isSome
  connections : ∀ c k', s'.connections.get c = some k' → (k'.closing = true → k'.connected = false) ∧
    ∃ k, s.connections.get c = some k ∧ k.clientId = k'.clientId ∧ (k'.isOpen = true → k.isOpen = true)

/-- Who is open after the step is not the connection that has closed. -/
lemma Fades.claimed (ha : Fades s s') (he : s.connections.get conn = some k) (hc : k.connected = false)
    (hf : s'.connections.get c = some k') (hl : k'.isOpen = true) (hs : k.clientId = k'.clientId) :
    s.claimed conn k.clientId = true := by
  obtain ⟨-, k₀, hf, id, hb⟩ := ha.connections c k' hf
  refine claimed_iff.mpr ⟨c, k₀, ?_, hf, id.trans hs.symm, hb hl⟩
  rintro rfl
  cases he.symm.trans hf
  have ho := hb hl
  rw [Connection.isOpen, hc] at ho
  cases ho

namespace Kept

lemma fades_self (hk : s.Kept) (ha : s'.accepted = s.accepted) (hs : s'.connections = s.connections) : Fades s s' := by
  refine ⟨ha, fun c ht => hs ▸ ht, fun c k' hf => ?_⟩
  rw [hs] at hf
  exact ⟨hk.closing c k' hf, k', hf, rfl, fun hl => hl⟩

lemma fades_put (hk : s.Kept) (ha : s'.accepted = s.accepted)
    (hc : s'.connections = s.connections.put conn k') (ho : s.connections.get conn = some k)
    (id : k'.clientId = k.clientId) (hb : k'.isOpen = true → k.isOpen = true)
    (he : k'.closing = true → k'.connected = false) : Fades s s' := by
  refine ⟨ha, fun c ht => ?_, fun c k'' hf => ?_⟩
  · rw [hc, get_put]
    split
    · rfl
    · exact ht
  rw [hc, get_put] at hf
  split at hf
  next hh =>
    cases hf
    exact ⟨he, k, hh ▸ ho, id.symm, hb⟩
  · exact ⟨hk.closing c k'' hf, k'', hf, rfl, fun hl => hl⟩

/-- The broker's part of a step keeps what open connections rely on. -/
lemma fade (hk : s.Kept) (ha : Fades s s') (hm : s'.broker.Keyed)
    (ho : ∀ c k, s'.connections.get c = some k → k.isOpen = true → s.broker.sessionOnline k.clientId = true →
      s'.broker.sessionOnline k.clientId = true) (hc : ∀ cid c, s.isOpen c = true → s.broker.onlineChannels.get cid = some c →
      s'.broker.onlineChannels.get cid = some c) : s'.Kept := by
  refine ⟨hm, fun c k' hf => (ha.connections c k' hf).1, fun c k' hf hl => ?_, fun cid c hj => ?_⟩
  · obtain ⟨-, k, he, id, hg⟩ := ha.connections c k' hf
    exact ho c k' hf hl (id ▸ hk.online c k he (hg hl))
  rw [ha.accepted] at hj
  obtain ⟨k, hb, hw, hh⟩ := hk.registered cid c hj
  obtain ⟨k', hf⟩ := isSome_iff_exists.mp (ha.there c (by rw [hb]; rfl))
  obtain ⟨-, k₀, he, id, hg⟩ := ha.connections c k' hf
  rw [hb] at he
  cases he
  refine ⟨k', hf, id ▸ hw, fun hl => hc cid c ?_ (hh (hg hl))⟩
  rw [isOpen, hb]
  exact hg hl

lemma quiet (he : s.Kept) (hf : Fades s s') (hk : s'.broker.Keyed)
    (ho : ∀ cid, s'.broker.sessionOnline cid = s.broker.sessionOnline cid)
    (hc : s'.broker.onlineChannels = s.broker.onlineChannels) : s'.Kept :=
  he.fade hf hk (fun _ _ _ _ up => (ho _).trans up) fun cid _ _ ht => (congrArg (·.get cid) hc).trans ht

/-- Settings of a session are changed. -/
lemma setSession (hk : s.Kept) (ha : Fades s s') (hf : s.broker.sessions.get cid = some ss)
    (hs : s'.broker.sessions = s.broker.sessions.put cid ss') (id : ss'.clientId = ss.clientId)
    (ho : ss'.online = ss.online) (hc : s'.broker.onlineChannels = s.broker.onlineChannels) : s'.Kept := by
  obtain ⟨own, hn⟩ := hk.keyed cid ss hf
  refine hk.quiet ha (hk.keyed.put hs hn (id.trans own)) (fun cid' => ?_) hc
  rw [sessionOnline, hs, get_put]
  split
  next hh => rw [any_some, ho, ← hh, sessionOnline, hf, any_some]
  · rfl

end Kept

end LiveBroker

namespace Broker

variable {b : Broker} {cid : Bytes} {ss ss' : SessionState}

lemma sessionOnline_iff : b.sessionOnline cid = true ↔ ∃ ss, b.sessions.get cid = some ss ∧ ss.online = true := by
  rw [sessionOnline, any_eq_true]

lemma sessionOnline_expire (hk : b.Keyed) (now : Int) (ho : b.sessionOnline cid = true) :
    (b.expireSessions now).sessionOnline cid = true := by
  obtain ⟨ss, hf, up⟩ := sessionOnline_iff.mp ho
  have ha : cid ∉ (b.sessions.records.filter (·.2.isExpired now)).map (·.2.clientId) := by
    intro hl
    obtain ⟨r, hm, id⟩ := List.mem_map.mp hl
    obtain ⟨hi, he⟩ := List.mem_filter.mp hm
    have hh := get_of_mem hi
    rw [← (hk _ _ hh).1, id, hf] at hh
    cases hh
    rw [SessionState.isExpired, up] at he
    cases he
  rw [sessionOnline, expireSessions, get_foldl_removeSession _ ha, hf]
  exact up

lemma onlineChannels_expire (now : Int) : (b.expireSessions now).onlineChannels = b.onlineChannels := by
  rw [expireSessions]
  generalize (b.sessions.records.filter (·.2.isExpired now)).map (·.2.clientId) = expired
  induction expired generalizing b with
  | nil => rfl
  | cons cid expired ih => exact ih

lemma routeTargets_frame (t : Bytes) (qos : Qos) (s : Bytes) :
    (b.routeTargets t qos s).2.sessions = b.sessions ∧ (b.routeTargets t qos s).2.onlineChannels = b.onlineChannels := by
  rw [routeTargets]
  split
  · split
    · exact ⟨rfl, rfl⟩
    · exact ⟨rfl, rfl⟩
  · exact ⟨rfl, rfl⟩

variable {filter : Bytes}

lemma onlineChannels_insertSubscription : (b.insertSubscription cid filter e).onlineChannels = b.onlineChannels := by
  obtain ⟨-, -, hs, -⟩ | ⟨_, _, -, -, hs, -⟩ := b.subscription_cases cid filter <;> rw [hs]

lemma onlineChannels_eraseSubscription : (b.eraseSubscription cid filter).onlineChannels = b.onlineChannels := by
  obtain ⟨-, -, -, hs⟩ | ⟨_, _, -, -, -, hs⟩ := b.subscription_cases cid filter <;> rw [hs]

lemma onlineChannels_connectState (cd : ConnectData) (now : Int) :
    (b.connectState cd now).1.onlineChannels = b.onlineChannels := by
  have hi (l : List (Bytes × SubscribeEntry)) (b : Broker) :
      (l.foldl (fun b r => b.insertSubscription cd.clientId r.1 r.2) b).onlineChannels = b.onlineChannels := by
    induction l generalizing b with
    | nil => rfl
    | cons r l ih => exact (ih _).trans onlineChannels_insertSubscription
  rw [connectState]
  dsimp only
  split
  · rfl
  split
  · exact hi _ _
  · rfl

end Broker

namespace LiveBroker

variable {s s' : LiveBroker} {conn c : Nat} {cid : Bytes} {k k' : Connection} {ss : SessionState}

lemma isOpen_enterCleanup : k.enterCleanup.isOpen = k.isOpen := by
  rw [enterCleanup]
  split <;> rfl

lemma clientId_enterCleanup : k.enterCleanup.clientId = k.clientId := by
  rw [enterCleanup]
  split <;> rfl

lemma connected_enterCleanup : k.enterCleanup.connected = k.connected := by
  rw [enterCleanup]
  split <;> rfl

namespace Kept

/-- A connection that has closed enters its cleanup. -/
lemma fades_enterCleanup (hk : s.Kept) (ha : s'.accepted = s.accepted)
    (hc : s'.connections = s.connections.put conn k'.enterCleanup) (hf : s.connections.get conn = some k)
    (id : k'.clientId = k.clientId) (hb : k'.connected = false) : Fades s s' := by
  refine hk.fades_put ha hc hf (clientId_enterCleanup.trans id) (fun hl => ?_) fun _ => ?_
  · rw [isOpen_enterCleanup, Connection.isOpen, hb] at hl
    cases hl
  · exact connected_enterCleanup.trans hb

variable {connections : SortedMap Nat Connection} {now : Int}

lemma connectState (hk : s.Kept) (ht : s.handleConnectState conn cd now = some s') : s'.Kept := by
  rw [handleConnectState] at ht
  split at ht
  · cases ht
  rename_i hfr
  cases ht
  rw [Bool.or_eq_true, not_or, Bool.not_eq_true, Bool.not_eq_true, isSome_eq_false_iff, isNone_iff_eq_none] at hfr
  have ha : (s.broker.connectState cd now).1.Keyed :=
    hk.keyed.step (show s.broker.step (.connectState cd now) = some _ by rw [Broker.step, hfr.1]; rfl)
  have hn (cid : Bytes) (up : s.broker.sessionOnline cid = true ∨ cd.clientId = cid) :
      (s.broker.connectState cd now).1.sessionOnline cid = true := by
    rw [sessionOnline, sessions_connectState, get_put]
    split
    · exact (s.broker.connectSession_spec cd now).2.2.2.1
    next ho => exact up.resolve_right ho
  have get (c : Nat) (k : Connection) (hf : (s.connections.put conn { clientId := cd.clientId }).get c = some k) :
      (conn = c ∧ k = { clientId := cd.clientId }) ∨ s.connections.get c = some k := by
    rw [get_put] at hf
    split at hf
    next hh => exact .inl ⟨hh, (Option.some.inj hf).symm⟩
    · exact .inr hf
  refine ⟨ha, fun c k hf => ?_, fun c k hf hl => ?_, fun cid c hg => ?_⟩
  · rcases get c k hf with ⟨-, rfl⟩ | hb
    · exact fun he => by cases he
    · exact hk.closing c k hb
  · rcases get c k hf with ⟨-, rfl⟩ | hb
    · exact hn _ (.inr rfl)
    · exact hn _ (.inl (hk.online c k hb hl))
  obtain ⟨k, hb, hw, hc⟩ := hk.registered cid c hg
  refine ⟨k, ?_, hw, fun hl => ?_⟩
  · have ho : conn ≠ c := by
      rintro rfl
      rw [hfr.2] at hb
      cases hb
    exact (get_put _ _ _).trans ((if_neg ho).trans hb)
  · exact (congrArg (·.get cid) (onlineChannels_connectState cd now)).trans (hc hl)

lemma closeTakeover_eq : closeTakeover connections old = connections ∨ ∃ c k, connections.get c = some k ∧
    closeTakeover connections old = connections.put c { k with takenOver := true } := by
  cases old with
  | none => exact .inl rfl
  | some old =>
    rw [closeTakeover]
    cases hf : connections.get old with
    | none => exact .inl rfl
    | some k => exact .inr ⟨old, k, hf, rfl⟩

variable (hk : s.Kept)

include hk

lemma connectRegister (ht : s.handleConnectRegister conn = some s') : s'.Kept := by
  obtain ⟨k, hb, ht⟩ := bind_eq_some_iff.mp ht
  split at ht
  · cases ht
  cases ht
  -- first the connection is marked, then the older one is closed, and then the new one is entered
  generalize hm : s.connections.put conn { k with registered := true } = marked
  have hr : ({ s with connections := marked } : LiveBroker).Kept :=
    hk.quiet (hk.fades_put rfl hm.symm hb rfl (fun hl => hl) (hk.closing conn k hb)) hk.keyed (fun _ => rfl) rfl
  have hn : marked.get conn = some { k with registered := true } := by rw [← hm, get_put, if_pos rfl]
  generalize hcl : closeTakeover marked (s.broker.onlineChannels.get k.clientId) = connections
  obtain ⟨hc, k', hf, id⟩ : ({ s with connections } : LiveBroker).Kept ∧
      ∃ k', connections.get conn = some k' ∧ k'.clientId = k.clientId := by
    rcases closeTakeover_eq with hs | ⟨c, k₁, hf, hs⟩
    · exact hcl ▸ hs ▸ ⟨hr, _, hn, rfl⟩
    rw [hcl] at hs
    refine ⟨hr.quiet (hr.fades_put rfl hs hf rfl (fun hl => ?_) (hr.closing c k₁ hf)) hk.keyed (fun _ => rfl) rfl, ?_⟩
    · simp [Connection.isOpen] at hl
    rw [hs, get_put]
    split
    next hh =>
      have he : some k₁ = some { k with registered := true } := (hh ▸ hf).symm.trans hn
      cases he
      exact ⟨_, rfl, rfl⟩
    · exact ⟨_, hn, rfl⟩
  refine ⟨hc.keyed, hc.closing, hc.online, fun cid c ha => ?_⟩
  rw [get_put] at ha
  split at ha
  next own =>
    cases ha
    exact ⟨k', hf, id.trans own, fun _ => (get_put _ _ _).trans (if_pos own)⟩
  next hg =>
    obtain ⟨k₀, hj, ho, hp⟩ := hc.registered cid c ha
    exact ⟨k₀, hj, ho, fun hl => (get_put _ _ _).trans ((if_neg hg).trans (hp hl))⟩

lemma subscribe (ht : s.handleSubscribe conn e = some s') : s'.Kept := by
  obtain ⟨k, -, ht⟩ := bind_eq_some_iff.mp ht
  split at ht
  · obtain ⟨⟨broker, isNew⟩, done, rfl⟩ := map_eq_some_iff.mp ht
    obtain ⟨ss, hf, hs, -⟩ := subscribe_spec done
    obtain ⟨ss', -, ha⟩ := map_eq_some_iff.mp done
    cases ha
    exact hk.setSession (hk.fades_self rfl rfl) hf hs rfl rfl onlineChannels_insertSubscription
  · cases ht

lemma unsubscribe (ht : s.handleUnsubscribe conn f = some s') : s'.Kept := by
  obtain ⟨k, -, ht⟩ := bind_eq_some_iff.mp ht
  split at ht
  · obtain ⟨⟨broker, existed⟩, done, rfl⟩ := map_eq_some_iff.mp ht
    obtain ⟨ss, hf, hs, -⟩ := unsubscribe_spec done
    obtain ⟨ss', -, ha⟩ := map_eq_some_iff.mp done
    cases ha
    exact hk.setSession (hk.fades_self rfl rfl) hf hs rfl rfl onlineChannels_eraseSubscription
  · cases ht

lemma close (ht : s.close conn = some s') : s'.Kept := by
  obtain ⟨k, hf, rfl⟩ := map_eq_some_iff.mp ht
  refine hk.quiet (hk.fades_put rfl rfl hf rfl (fun hl => ?_) fun _ => rfl) hk.keyed (fun _ => rfl) rfl
  cases hl

lemma keepAliveTimeout (ht : s.keepAliveTimeout conn = some s') : s'.Kept := by
  obtain ⟨k, hf, ht⟩ := bind_eq_some_iff.mp ht
  split at ht
  · cases ht
    exact hk.quiet (hk.fades_enterCleanup rfl rfl hf rfl rfl) hk.keyed (fun _ => rfl) rfl
  · cases ht

lemma disconnect (ht : s.handleDisconnect conn exp = some s') : s'.Kept := by
  obtain ⟨k, hf, ht⟩ := bind_eq_some_iff.mp ht
  obtain ⟨ss, hs, ht⟩ := bind_eq_some_iff.mp ht
  split at ht
  · cases ht
    exact hk.setSession (hk.fades_enterCleanup rfl rfl hf rfl rfl) hs rfl rfl rfl rfl
  · cases ht

lemma unexpectedDisconnect (ht : s.handleUnexpectedDisconnect conn = some s') : s'.Kept := by
  obtain ⟨k, hf, ht⟩ := bind_eq_some_iff.mp ht
  obtain ⟨ss, hs, ht⟩ := bind_eq_some_iff.mp ht
  split at ht
  · split at ht
    · cases ht
      exact hk.quiet (hk.fades_enterCleanup rfl rfl hf rfl rfl) hk.keyed (fun _ => rfl) rfl
    split at ht
    · cases ht
      exact hk.setSession (hk.fades_enterCleanup rfl rfl hf rfl rfl) hs rfl rfl rfl rfl
    cases ht
    refine hk.quiet (hk.fades_put rfl rfl hf rfl (fun hl => ?_) fun _ => rfl) hk.keyed (fun _ => rfl) rfl
    cases hl
  · cases ht

lemma finishPublishWill (ht : s.finishPublishWill conn = some s') : s'.Kept := by
  obtain ⟨k, hf, ht⟩ := bind_eq_some_iff.mp ht
  obtain ⟨ss, hs, ht⟩ := bind_eq_some_iff.mp ht
  split at ht
  next hr =>
    cases ht
    have hc : k.connected = false := hk.closing conn k hf (by rw [Connection.closing, hr, Bool.or_true])
    exact hk.setSession (hk.fades_enterCleanup rfl rfl hf rfl hc) hs rfl rfl rfl rfl
  · cases ht

lemma willDelayTask (ht : s.willDelayTask task = some s') : s'.Kept := by
  obtain ⟨delayed, -, rfl⟩ := map_eq_some_iff.mp ht
  dsimp only
  split
  · exact hk.quiet (hk.fades_self rfl rfl) hk.keyed (fun _ => rfl) rfl
  · exact hk.quiet (hk.fades_self rfl rfl) hk.keyed (fun _ => rfl) rfl

lemma cleanupOffline (hs : s.teardownSpares (.cleanupOffline conn now) = true)
    (ht : s.cleanupOffline conn now = some s') : s'.Kept := by
  obtain ⟨k, hf, ht⟩ := bind_eq_some_iff.mp ht
  have hs := teardownSpares_closing hs rfl hf
  split at ht
  next he =>
    obtain ⟨broker, done, rfl⟩ := map_eq_some_iff.mp ht
    obtain ⟨ss, hb, rfl⟩ := map_eq_some_iff.mp done
    obtain ⟨own, hn⟩ := hk.keyed _ ss hb
    have hc : k.connected = false := hk.closing conn k hf (by rw [Connection.closing, he]; rfl)
    have ha : Fades s ({ s with broker := { s.broker with sessions := s.broker.sessions.put k.clientId (ss.goOffline now) } }.putConnection
        conn { k with cleanup := some .unregister }) :=
      hk.fades_put rfl rfl hf rfl (fun hl => hl) fun _ => hc
    refine hk.fade ha (hk.keyed.put rfl hn own) (fun c k' hu hl up => ?_) fun _ _ _ hh => hh
    have ho : k.clientId ≠ k'.clientId := by
      intro hg
      rw [spares, ha.claimed hf hc hu hl hg] at hs
      cases hs
    exact (congrArg (Option.any _) ((get_put _ _ _).trans (if_neg ho))).trans up
  · cases ht

lemma cleanupUnregister (hs : s.teardownSpares (.cleanupUnregister conn) = true)
    (ht : s.cleanupUnregister conn = some s') : s'.Kept := by
  obtain ⟨k, hf, ht⟩ := bind_eq_some_iff.mp ht
  have hs := teardownSpares_closing hs rfl hf
  split at ht
  next he =>
    cases ht
    have hc : k.connected = false := hk.closing conn k hf (by rw [Connection.closing, he]; rfl)
    refine hk.fade (hk.fades_put rfl rfl hf rfl (fun hl => hl) fun _ => hc) hk.keyed
      (fun _ _ _ _ up => up) fun cid c hl hh => ?_
    refine (get_delete _ _).trans ((if_neg ?_).trans hh)
    rintro rfl
    rw [spares, hh, all_some, hl] at hs
    cases hs
  · cases ht

lemma cleanupRemove (hs : s.teardownSpares (.cleanupRemove conn) = true) (ht : s.cleanupRemove conn = some s') : s'.Kept := by
  obtain ⟨k, hf, ht⟩ := bind_eq_some_iff.mp ht
  have hs := teardownSpares_closing hs rfl hf
  split at ht
  next he =>
    obtain ⟨broker, done, rfl⟩ := map_eq_some_iff.mp ht
    obtain ⟨ss, hg, ha⟩ := map_eq_some_iff.mp done
    have hc : k.connected = false := hk.closing conn k hf (by rw [Connection.closing, he]; rfl)
    have hb : Fades s ({ s with broker }.putConnection conn { k with cleanup := none }) :=
      hk.fades_put rfl rfl hf rfl (fun hl => hl) fun _ => hc
    split at ha
    next hr =>
      cases ha
      refine hk.fade hb (hk.keyed.removeSession _) (fun c k' hu hl up => ?_) fun _ _ _ hh => hh
      have ho : k.clientId ≠ k'.clientId := by
        intro ha
        rw [spares, hb.claimed hf hc hu hl ha, hg, all_some, hr] at hs
        cases hs
      exact (congrArg (Option.any _) ((get_delete _ _).trans (if_neg ho))).trans up
    · cases ha
      exact hk.quiet hb hk.keyed (fun _ => rfl) rfl
  · cases ht

lemma expire (now : Int) : ({ s with broker := s.broker.expireSessions now } : LiveBroker).Kept := by
  refine hk.fade (hk.fades_self rfl rfl) (hk.keyed.step (show s.broker.step (.expire now) = some _ from rfl))
    (fun c k hf hl up => sessionOnline_expire hk.keyed now up) fun cid c hl ht => ?_
  exact (congrArg (·.get cid) (onlineChannels_expire now)).trans ht

lemma publish (tp : Bytes) (qos : Qos) (snd : Bytes) :
    ({ s with broker := (s.broker.routeTargets tp qos snd).2 } : LiveBroker).Kept := by
  obtain ⟨hs, hc⟩ := s.broker.routeTargets_frame tp qos snd
  refine hk.quiet (hk.fades_self rfl rfl)
    (hk.keyed.step (show s.broker.step (.publish tp qos snd) = some _ from rfl)) (fun cid => ?_) hc
  rw [sessionOnline, sessionOnline, hs]

lemma step (hs : s.teardownSpares call = true) (ht : s.step call = some s') : s'.Kept := by
  cases call with
  | connectState conn cd now => exact hk.connectState ht
  | connectRegister conn => exact hk.connectRegister ht
  | subscribe conn e => exact hk.subscribe ht
  | unsubscribe conn f => exact hk.unsubscribe ht
  | close conn => exact hk.close ht
  | disconnect conn exp => exact hk.disconnect ht
  | unexpectedDisconnect conn => exact hk.unexpectedDisconnect ht
  | finishPublishWill conn => exact hk.finishPublishWill ht
  | keepAliveTimeout conn => exact hk.keepAliveTimeout ht
  | willDelayTask task => exact hk.willDelayTask ht
  | cleanupOffline conn now => exact hk.cleanupOffline hs ht
  | cleanupUnregister conn => exact hk.cleanupUnregister hs ht
  | cleanupRemove conn => exact hk.cleanupRemove hs ht
  | expire now =>
    cases ht
    exact hk.expire now
  | publish tp qos snd =>
    cases ht
    exact hk.publish tp qos snd

end Kept

/-- The will and the subscriptions of a client are as they were, and no will was published or put aside. -/
structure Undisturbed (s s' : LiveBroker) (clientId : Bytes) : Prop where
  will : (s'.broker.sessions.get clientId).map (·.willMsg) = (s.broker.sessions.get clientId).map (·.willMsg)
  subscriptions : ∀ filter, s'.broker.subscriptionOf clientId filter = s.broker.subscriptionOf clientId filter
  indexes : s'.broker.subMap = s.broker.subMap ∧ s'.broker.sharedStore = s.broker.sharedStore
  published : s'.publishedWills = s.publishedWills ∧ s'.delayedWills = s.delayedWills

lemma Undisturbed.self (s : LiveBroker) (conn : Nat) (k : Connection) (cid : Bytes) :
    Undisturbed s (s.putConnection conn k) cid :=
  ⟨rfl, fun _ => rfl, ⟨rfl, rfl⟩, rfl, rfl⟩

/-- Settings other than the will change in a session that has no will. -/
lemma Undisturbed.putSession (hf : s.broker.sessions.get cid = some ss) (hw : ss.willMsg = none)
    (ha : s' = (s.putSession cid ss').putConnection conn k) (hb : ss'.willMsg = none)
    (hs : ss'.subscriptions = ss.subscriptions) : Undisturbed s s' cid := by
  subst ha
  have hh : ((s.putSession cid ss').putConnection conn k).broker.sessions.get cid = some ss' :=
    (get_put _ _ _).trans (if_pos rfl)
  refine ⟨?_, fun f => ?_, ⟨rfl, rfl⟩, rfl, rfl⟩
  · rw [hh, hf, map_some, map_some, hw, hb]
  · rw [subscriptionOf, subscriptionOf, hh, hf, bind_some, bind_some, hs]

/-- While a newer connection is open, no block that spares it touches its will or its subscriptions. -/
lemma teardown_undisturbed (hk : s.Kept) (hs : s.teardownSpares call = true)
    (ht : s.step call = some s') (hc : call.closing = some conn) (ha : s.connections.get conn = some k)
    (hj : s.accepted.get k.clientId = some c) (ho : c ≠ conn) (hl : s.isOpen c = true) : Undisturbed s s' k.clientId := by
  have hs := teardownSpares_closing hs hc ha
  obtain ⟨k', hu, id, hh⟩ := hk.registered _ c hj
  rw [isOpen, hu] at hl
  have hb : s.claimed conn k.clientId = true := claimed_iff.mpr ⟨c, k', ho, hu, id, hl⟩
  -- each block finds the connection itself, and then the session
  cases call with
  | connectState | connectRegister | subscribe | unsubscribe | willDelayTask | expire | publish => cases hc
  | close conn =>
    cases hc
    obtain ⟨k₀, hf, rfl⟩ := map_eq_some_iff.mp ht
    exact .self s conn _ _
  | keepAliveTimeout conn =>
    cases hc
    obtain ⟨k₀, hf, ht⟩ := bind_eq_some_iff.mp ht
    split at ht
    · cases ht
      exact .self s conn _ _
    · cases ht
  | disconnect conn exp | finishPublishWill conn =>
    cases hc
    obtain ⟨k₀, hf, ht⟩ := bind_eq_some_iff.mp ht
    cases ha.symm.trans hf
    obtain ⟨ss, he, ht⟩ := bind_eq_some_iff.mp ht
    have hw : ss.willMsg = none := by
      rw [spares, hb, he] at hs
      exact isNone_iff_eq_none.mp hs
    split at ht
    · cases ht
      exact .putSession he hw rfl rfl rfl
    · cases ht
  | unexpectedDisconnect conn =>
    cases hc
    obtain ⟨k₀, hf, ht⟩ := bind_eq_some_iff.mp ht
    cases ha.symm.trans hf
    obtain ⟨ss, he, ht⟩ := bind_eq_some_iff.mp ht
    have hw : ss.willMsg = none := by
      rw [spares, hb, he] at hs
      exact isNone_iff_eq_none.mp hs
    split at ht
    · rw [hw] at ht
      cases ht
      exact .self s conn _ _
    · cases ht
  | cleanupOffline conn now =>
    cases hc
    rw [spares, hb] at hs
    cases hs
  | cleanupUnregister conn =>
    cases hc
    rw [spares, hh hl, all_some, isOpen, hu, hl] at hs
    cases hs
  | cleanupRemove conn =>
    cases hc
    obtain ⟨k₀, hf, ht⟩ := bind_eq_some_iff.mp ht
    cases ha.symm.trans hf
    split at ht
    · obtain ⟨broker, done, rfl⟩ := map_eq_some_iff.mp ht
      obtain ⟨ss, he, hg⟩ := map_eq_some_iff.mp done
      split at hg
      next hr =>
        rw [spares, hb, he, all_some, hr] at hs
        cases hs
      · cases hg
        exact .self s conn _ _
    · cases ht

lemma kept_loadPersistence (lim : Nat) (vs : List SessionState) (now : Int) :
    ({ broker := loadPersistence lim vs now } : LiveBroker).Kept := by
  refine ⟨fun cid ss hf => ?_, ?_, ?_, ?_⟩
  rotate_left
  · rintro c k ⟨⟩
  · rintro c k ⟨⟩
  · rintro cid c ⟨⟩
  obtain ⟨id, hn, -⟩ := loadPersistence_keyed lim vs now cid ss hf
  exact ⟨id, hn⟩

/-- While every block of a teardown spares the newer connection, the connection of a client accepted last stays the one it
is reached by until it closes, its session is there and online, and the teardown of another takes neither its will nor its
subscriptions. -/
theorem takeover_keeps_newest (limit : Nat) (values : List SessionState) (now : Int)
    (run : Reached step (fun s call => s.teardownSpares call = true) { broker := Broker.loadPersistence limit values now } s) :
    (∀ cid c, s.accepted.get cid = some c → s.isOpen c = true → s.broker.onlineChannels.get cid = some c ∧
      ∃ ss, s.broker.sessions.get cid = some ss ∧ ss.online = true) ∧
    ∀ call s' conn k c, s.step call = some s' → s.teardownSpares call = true → call.closing = some conn →
      s.connections.get conn = some k → s.accepted.get k.clientId = some c → c ≠ conn → s.isOpen c = true →
      Undisturbed s s' k.clientId := by
  have hk : s.Kept := run.invariant Kept (kept_loadPersistence limit values now) fun hk hs ht => hk.step hs ht
  constructor
  · intro cid c hb hl
    obtain ⟨k, hf, id, hc⟩ := hk.registered cid c hb
    rw [isOpen, hf] at hl
    exact ⟨hc hl, Broker.sessionOnline_iff.mp (id ▸ hk.online c k hf hl)⟩
  · intro call s' conn k c ht hs ha hf hb ho hl
    exact teardown_undisturbed hk hs ht ha hf hb ho hl

/-- Two connections of one client, the second with a will; the first is closed by the takeover. -/
def takeoverCalls : List LiveCall :=
  [.connectState 0 { clientId := "a", cleanSession := false } 0, .connectRegister 0,
    .connectState 1 { clientId := "a", cleanSession := false, willMsg := some { topic := "w", message := [] } } 1,
    .connectRegister 1]

theorem takeover_keeps_second : ∃ s, Reached step (fun s call => s.teardownSpares call = true)
    { broker := Broker.loadPersistence 1000 [] 0 } s ∧ s.broker.onlineChannels.get "a" = some 1 ∧
      ∃ ss, s.broker.sessions.get "a" = some ss ∧ ss.online = true := by
  obtain ⟨s, run, ha, hl⟩ : ∃ s, Reached step (fun s call => s.teardownSpares call = true)
      { broker := Broker.loadPersistence 1000 [] 0 } s ∧ s.accepted.get "a" = some 1 ∧ s.isOpen 1 = true :=
    ⟨_, .runChecked .start takeoverCalls rfl, by decide +kernel, by decide +kernel⟩
  exact ⟨s, run, (takeover_keeps_newest 1000 [] 0 run).1 _ 1 ha hl⟩

/-- The connection that was replaced publishes the will of the one that replaced it, takes the session offline and takes out
the new entry, while the new connection is open. -/
theorem teardown_unregisters_newest : ∃ s, Reached step (fun _ _ => True) { broker := Broker.loadPersistence 1000 [] 0 } s ∧
    s.accepted.get "a" = some 1 ∧ s.isOpen 1 = true ∧ s.broker.onlineChannels.get "a" = none ∧
      s.broker.sessionOnline "a" = false ∧ (s.broker.sessions.get "a").bind (·.willMsg) = none ∧
      s.publishedWills = [(ascii "a", { topic := ascii "w", message := [] })] :=
  ⟨_, .runChecked .start (takeoverCalls ++ [.unexpectedDisconnect 0, .finishPublishWill 0, .cleanupOffline 0 2,
    .cleanupUnregister 0, .cleanupRemove 0]) rfl, by decide +kernel, by decide +kernel, by decide +kernel, by decide +kernel,
    by decide +kernel, by decide +kernel⟩

end LiveBroker

end Cnetmod.Mqtt
