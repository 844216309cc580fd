import Cnetmod.Consensus.Run
import Cnetmod.Mongo.Source.TopologyMonitor

/-!
# Superseded primaries

A description of a primary is compared with the primaries on record. Nothing is kept of a
primary that has failed or left the host list, so an older one is taken after it.
-/
namespace Cnetmod.Mongo

open List Option

variable {α : Type} [LinearOrder α]

/-- The set version and the election id of a primary, in this order of precedence. -/
abbrev Term := Int × Nat

def Term.older (p q : Term) : Prop := p.1 < q.1 ∨ p.1 = q.1 ∧ p.2 < q.2

instance (p q : Term) : Decidable (p.older q) := inferInstanceAs (Decidable (_ ∨ _))

def ServerDescription.term (server : ServerDescription α) : Option Term :=
  server.setVersion.bind fun version => server.electionId.map (version, ·)

namespace TopologyMonitor

open Coding

def Recorded (m : TopologyMonitor α) (key : α) (server : ServerDescription α) : Prop := (key, server) ∈ m.servers.records

/-- Every server is recorded under its address, and one of them at most is a primary. -/
structure WellFormed (m : TopologyMonitor α) : Prop where
  keyed : ∀ key server, m.Recorded key server → server.address = key
  single : ∀ key server key' server', m.Recorded key server → m.Recorded key' server' →
    server.kind = .replicaPrimary → server'.kind = .replicaPrimary → key = key'

variable {m : TopologyMonitor α} {d e : ServerDescription α} {key : α}

lemma mem_supersede (h : (key, e) ∈ (supersede d l).2) :
    ∃ f, (key, f) ∈ l ∧ f.address = e.address ∧ (e.kind = .replicaPrimary → f = e) := by
  fun_induction supersede d l with
  | case1 => cases h
  | case2 k old tl hr ho => exact ⟨e, h, rfl, fun _ => rfl⟩
  | case3 k old tl hr ho d' rest' hs ih =>
    rcases mem_cons.mp h with heq | hm
    · obtain ⟨rfl, rfl⟩ := Prod.mk.inj heq
      exact ⟨old, mem_cons_self, rfl, fun hp => by cases hp⟩
    · obtain ⟨f, hf, ha⟩ := ih (hs ▸ hm)
      exact ⟨f, mem_cons_of_mem _ hf, ha⟩
  | case4 k old tl hr d' rest' hs ih =>
    rcases mem_cons.mp h with heq | hm
    · exact ⟨e, heq ▸ mem_cons_self, rfl, fun _ => rfl⟩
    · obtain ⟨f, hf, ha⟩ := ih (hs ▸ hm)
      exact ⟨f, mem_cons_of_mem _ hf, ha⟩

/-- What the loop leaves of the description: all of it, if it is older than no rival, and
then no rival stays a primary. -/
lemma supersede_description : (supersede d l).1 = d ∧ (∀ r ∈ l, d.rivals r.2 = true → d.olderThan r.2 = false) ∧
      (∀ r ∈ (supersede d l).2, d.rivals r.2 = false) ∨
    (supersede d l).1 = d.fail "stale MongoDB replica set primary description" := by
  fun_induction supersede d l with
  | case1 => simp
  | case2 k old tl hr ho => exact .inr rfl
  | case3 k old tl hr ho d' rest' hs ih =>
    rw [hs] at ih
    refine ih.imp_left fun h => ⟨h.1, ?_, ?_⟩
    · simpa [hr, ho] using h.2.1
    · refine forall_mem_cons.mpr ⟨rfl, h.2.2⟩
  | case4 k old tl hr d' rest' hs ih =>
    rw [hs] at ih
    refine ih.imp_left fun h => ⟨h.1, ?_, ?_⟩
    · simpa [hr] using h.2.1
    · exact forall_mem_cons.mpr ⟨by simpa using hr, h.2.2⟩

lemma mem_discovered {ho : List α} {servers : SortedMap α (ServerDescription α)}
    (h : (key, e) ∈ (ho.foldl (fun servers host => servers.tryEmplace host { address := host }) servers).records) :
    (key, e) ∈ servers.records ∨ e = { address := key } := by
  induction ho generalizing servers with
  | nil => exact .inl h
  | cons host ho ih =>
    refine (ih h).elim (fun hm => ?_) .inr
    rw [← SortedMap.get_eq_some_iff, SortedMap.get_tryEmplace] at hm
    split at hm
    next he =>
      subst he
      cases hg : servers.get host with
      | none =>
        rw [hg] at hm
        exact .inr (some.inj hm).symm
      | some f =>
        rw [hg] at hm
        exact .inl (SortedMap.get_eq_some_iff.mp (hm ▸ hg))
    · exact .inl (SortedMap.get_eq_some_iff.mp hm)

/-- What `update` makes of its description, and the other records. -/
def incoming (m : TopologyMonitor α) (d : ServerDescription α) : ServerDescription α × SortedMap α (ServerDescription α) :=
  if (m.ofRequired d).kind = .replicaPrimary then superseded m.servers (m.ofRequired d) else (m.ofRequired d, m.servers)

lemma recorded_update : (m.update d).Recorded key e → key = (m.incoming d).1.address ∧ e = (m.incoming d).1 ∨
      key ≠ (m.incoming d).1.address ∧ ((key, e) ∈ (m.incoming d).2.records ∨ e = { address := key }) :=
  fun h => (SortedMap.mem_put.mp h).imp_right fun hm => ⟨hm.1, mem_discovered hm.2⟩

lemma ofRequired_cases : m.ofRequired d = d ∨ (m.ofRequired d).kind = .unknown ∧ (m.ofRequired d).address = d.address := by
  rw [ofRequired]
  split
  · exact .inr ⟨rfl, rfl⟩
  · exact .inl rfl

/-- Either the description is taken as a primary, older than no other on record, and no
other stays one, or it is not a primary. -/
lemma incoming_cases : (m.incoming d).1 = d ∧ (∀ r ∈ m.servers.records, d.rivals r.2 = true → d.olderThan r.2 = false) ∧
      (∀ r ∈ (m.incoming d).2.records, d.rivals r.2 = false) ∨
    (m.incoming d).1.kind ≠ .replicaPrimary ∧ (m.incoming d).1.address = d.address := by
  rw [incoming]
  rcases m.ofRequired_cases with hd | ⟨hk, ha⟩
  · rw [hd]
    split
    · refine supersede_description.imp_right fun hf => ?_
      rw [show (superseded m.servers d).1 = _ from hf]
      exact ⟨nofun, rfl⟩
    next hk => exact .inr ⟨hk, rfl⟩
  · rw [if_neg (by rw [hk]; nofun)]
    exact .inr ⟨by rw [hk]; nofun, ha⟩

lemma mem_incoming (h : (key, e) ∈ (m.incoming d).2.records) :
    ∃ f, m.Recorded key f ∧ f.address = e.address ∧ (e.kind = .replicaPrimary → f = e) := by
  rw [incoming] at h
  split at h
  · exact mem_supersede h
  · exact ⟨e, h, rfl, fun _ => rfl⟩

lemma incoming_address : (m.incoming d).1.address = d.address := by
  rcases m.incoming_cases with h | h
  · rw [h.1]
  · exact h.2

/-- A primary on record after `update` is the one reported, or it was on record and the
one reported is none. -/
lemma update_primary (hw : m.WellFormed) (h : (m.update d).Recorded key e) (hp : e.kind = .replicaPrimary) :
    (key = d.address ∧ e = d ∧ (m.incoming d).1 = d ∧ ∀ r ∈ m.servers.records, d.rivals r.2 = true → d.olderThan r.2 = false) ∨
    m.Recorded key e ∧ (m.incoming d).1.kind ≠ .replicaPrimary := by
  have ha := m.incoming_address (d := d)
  rcases recorded_update h with ⟨hk, rfl⟩ | ⟨hk, hm | rfl⟩
  · rcases m.incoming_cases with ⟨hd, ho, -⟩ | ⟨hn, -⟩
    · exact .inl ⟨hk.trans ha, hd, hd, ho⟩
    · exact absurd hp hn
  · obtain ⟨f, ho, -, hf⟩ := mem_incoming hm
    obtain rfl := hf hp
    refine .inr ⟨ho, ?_⟩
    rcases m.incoming_cases with ⟨-, -, hb⟩ | ⟨hn, -⟩
    · have hr := hb _ hm
      rw [ServerDescription.rivals, hw.keyed _ _ ho] at hr
      simp_all
    · exact hn
  · cases hp

lemma WellFormed.update (hw : m.WellFormed) : (m.update d).WellFormed where
  keyed key e h := by
    rcases recorded_update h with ⟨rfl, rfl⟩ | ⟨-, hm | rfl⟩
    · rfl
    · obtain ⟨f, hf, ha, -⟩ := mem_incoming hm
      exact ha ▸ hw.keyed key f hf
    · rfl
  single key e key' e' h h' hp hp' := by
    rcases update_primary hw h hp with ⟨hk, hd, ht, -⟩ | ⟨ho, hn⟩ <;>
      rcases update_primary hw h' hp' with ⟨hk', hd', ht', -⟩ | ⟨hold', hn'⟩
    · rw [hk, hk']
    · exact absurd (by rw [ht, ← hd, hp]) hn'
    · exact absurd (by rw [ht', ← hd', hp']) hn
    · exact hw.single key e key' e' ho hold' hp hp'

/-- A change that records no primary anew. -/
lemma WellFormed.of_recorded {m' : TopologyMonitor α} (hw : m.WellFormed)
    (hr : ∀ key e, m'.Recorded key e → e.address = key ∧ (e.kind = .replicaPrimary → m.Recorded key e)) : m'.WellFormed where
  keyed key e h := (hr key e h).1
  single key e key' e' h h' hp hp' := hw.single key e key' e' ((hr key e h).2 hp) ((hr key' e' h').2 hp') hp hp'

lemma recorded_retainServers (hw : m.WellFormed) (h : (m.retainServers addresses).Recorded key e) :
    e.address = key ∧ (e.kind = .replicaPrimary → m.Recorded key e) := by
  have hm : m.Recorded key e := (mem_filter.mp h).1
  exact ⟨hw.keyed key e hm, fun _ => hm⟩

lemma recorded_markUnknown (hw : m.WellFormed)
    (h : (m.markUnknown address reason).Recorded key e) : e.address = key ∧ (e.kind = .replicaPrimary → m.Recorded key e) := by
  rcases SortedMap.mem_put.mp h with ⟨rfl, rfl⟩ | ⟨-, hm⟩
  · exact ⟨rfl, nofun⟩
  · exact ⟨hw.keyed key e hm, fun _ => hm⟩

lemma mem_candidates (h : e ∈ m.candidates) : ∃ key, m.Recorded key e := by
  have hm : e ∈ m.servers.records.map (·.2) := by
    rw [candidates] at h
    split at h
    · exact mem_of_find?_eq_some (mem_toList.mp h)
    · exact (mem_filter.mp h).1
  obtain ⟨⟨key, f⟩, hr, rfl⟩ := mem_map.mp hm
  exact ⟨key, hr⟩

lemma selectServer_recorded
    (h : m.selectServer localThreshold maximumStaleness tagSets turn = .ok e) : ∃ key, m.Recorded key e := by
  rw [selectServer] at h
  split at h
  · cases h
  split at h
  · cases h
  dsimp only at h
  generalize hnear : m.candidates.filter _ = near at h
  cases hg : near[turn % near.length]? with
  | none =>
    rw [hg] at h
    cases h
  | some f =>
    rw [hg] at h
    cases h
    exact mem_candidates (mem_filter.mp (hnear ▸ mem_of_getElem? hg)).1

end TopologyMonitor

open TopologyMonitor

inductive Operation (α : Type) where
  | update (description : ServerDescription α)
  | retainServers (addresses : List α)
  | markUnknown (address : α) (reason : String)

/-- The monitor and the terms of the primaries it has accepted. -/
structure History (α : Type) [LinearOrder α] where
  monitor : TopologyMonitor α := {}
  accepted : List Term := []

namespace History

def step (s : History α) : Operation α → Option (History α)
  | .update d =>
    let taken := (s.monitor.incoming d).1
    some ⟨s.monitor.update d, s.accepted ++ if taken.kind = .replicaPrimary then taken.term.toList else []⟩
  | .retainServers addresses => some { s with monitor := s.monitor.retainServers addresses }
  | .markUnknown address reason => some { s with monitor := s.monitor.markUnknown address reason }

/-- A primary older than one accepted before is reported while another is on record that
is newer than it. -/
def Discerns (s : History α) : Operation α → Prop
  | .update d => d.kind = .replicaPrimary → ∀ t ∈ d.term, (∃ p ∈ s.accepted, t.older p) →
      ∃ r ∈ s.monitor.servers.records, d.rivals r.2 = true ∧ d.olderThan r.2 = true
  | _ => True

/-- No primary on record is older than one accepted. -/
structure Current (s : History α) : Prop extends s.monitor.WellFormed where
  newest : ∀ key e, s.monitor.Recorded key e → e.kind = .replicaPrimary → ∀ t ∈ e.term, ∀ p ∈ s.accepted, ¬ t.older p

lemma Current.of_recorded {s : History α} (hc : s.Current) (hr : ∀ key e, m.Recorded key e →
    e.address = key ∧ (e.kind = .replicaPrimary → s.monitor.Recorded key e)) : ({ s with monitor := m } : History α).Current :=
  ⟨hc.toWellFormed.of_recorded hr, fun key e h hp => hc.newest key e ((hr key e h).2 hp) hp⟩

lemma Current.step {s s' : History α} (hc : s.Current) (ho : s.Discerns op) (hs : s.step op = some s') : s'.Current := by
  cases op with
  | update d =>
    cases hs
    refine ⟨hc.toWellFormed.update, fun key e h hp t ht p hm ha => ?_⟩
    rcases update_primary hc.toWellFormed h hp with ⟨-, rfl, hd, hb⟩ | ⟨he, hn⟩
    · rw [hd, if_pos hp, mem_append] at hm
      rcases hm with hm | hm
      · obtain ⟨r, hr, hv, hl⟩ := ho hp t ht ⟨p, hm, ha⟩
        rw [hb r hr hv] at hl
        cases hl
      · cases some.inj ((mem_toList.mp hm).symm.trans ht)
        exact ha.elim (lt_irrefl _) fun h => lt_irrefl _ h.2
    · rw [if_neg hn, append_nil] at hm
      exact hc.newest key e he hp t ht p hm ha
  | retainServers addresses =>
    cases hs
    exact hc.of_recorded fun key e => recorded_retainServers hc.toWellFormed
  | markUnknown address reason =>
    cases hs
    exact hc.of_recorded fun key e => recorded_markUnknown hc.toWellFormed

/-- Whatever is reported, one server at most is a primary. -/
theorem one_primary (required : Option String) (ops : List (Operation α)) :
    (ops.foldl (fun s op => (s.step op).getD s) ({ monitor := { requiredReplicaSet := required } } : History α)).monitor.WellFormed := by
  refine List.foldlRecOn (motive := fun s : History α => s.monitor.WellFormed) ops _ ?_ fun s hw op _ => ?_
  · exact ⟨fun _ _ h => absurd h not_mem_nil, fun _ _ _ _ h => absurd h not_mem_nil⟩
  cases op with
  | update d => exact hw.update
  | retainServers _ => exact hw.of_recorded fun _ _ => recorded_retainServers hw
  | markUnknown _ _ => exact hw.of_recorded fun _ _ => recorded_markUnknown hw

/-- In a run in which every older primary meets a newer one on record, one server at most
is a primary, it is as new as any accepted, and writes go to no older one. -/
theorem primary_stays_newest {required : Option String} {s : History α}
    (hr : Consensus.Reached step Discerns { monitor := { requiredReplicaSet := required } } s) :
    s.Current ∧ ∀ localThreshold maximumStaleness tagSets turn e,
      s.monitor.selectServer localThreshold maximumStaleness tagSets turn = .ok e → e.kind = .replicaPrimary →
        ∀ t ∈ e.term, ∀ p ∈ s.accepted, ¬ t.older p := by
  have hc : s.Current := hr.invariant Current ⟨⟨fun _ _ h => absurd h not_mem_nil,
    fun _ _ _ _ h => absurd h not_mem_nil⟩, fun _ _ h => absurd h not_mem_nil⟩ Current.step
  refine ⟨hc, fun localThreshold maximumStaleness tagSets turn e h hp => ?_⟩
  obtain ⟨key, he⟩ := selectServer_recorded h
  exact hc.newest key e he hp

def primary (address : Nat) (version : Int) (election : Nat) : ServerDescription Nat :=
  { address, kind := .replicaPrimary, setVersion := some version, electionId := some election }

/-- A primary of set version 2 is accepted and fails, and one of set version 1 gets the writes. -/
theorem superseded_primary_selected :
    let s := [Operation.update (primary 1 2 5), .markUnknown 1 "down", .update (primary 2 1 7)].foldl
      (fun s op => (s.step op).getD s) ({} : History Nat)
    s.accepted = [(2, 5), (1, 7)] ∧ Term.older (1, 7) (2, 5) ∧
      ((s.monitor.selectServer 15 (-1) [] 0).toOption.map fun e => (e.kind, e.term)) = some (.replicaPrimary, some (1, 7)) := by
  decide +kernel

theorem primary_stays_newest_second :
    (⟨(({} : TopologyMonitor Nat).update (primary 1 2 5)).update (primary 2 1 7), [(2, 5)]⟩ : History Nat).Current := by
  refine (primary_stays_newest (?_ : Consensus.Reached step Discerns {} _)).1
  refine .next (s := ⟨({} : TopologyMonitor Nat).update (primary 1 2 5), [(2, 5)]⟩) (a := .update (primary 2 1 7))
    (.next (a := .update (primary 1 2 5)) .start (fun _ t _ h => absurd h.choose_spec.1 not_mem_nil) ?_) (fun _ t _ _ => ?_) ?_
  · rfl
  · exact ⟨(1, primary 1 2 5), mem_singleton.mpr rfl, by decide +kernel, by decide +kernel⟩
  · rfl

end History

end Cnetmod.Mongo
