import Cnetmod.Raft.Spec.Reactions

/-!
# Terms, acknowledgements and pending reads

A call never lowers the term, and an append is acknowledged in a term no older
than the one the call started in. Pending reads are dropped, credited with an
acknowledgement of the current term, or added by `read_index`.
-/
namespace Cnetmod.Raft

open List RaftNode

variable {n0 n m : RaftNode} {inp : Input}

lemma Move.currentTerm_le (hm : Move n0 inp n m out) : n.state.currentTerm ≤ m.state.currentTerm := by
  cases hm with
  | quiet hs => rw [core_state hs]
  | persist => rw [persist_state]
  | stop e => rw [stop_state]
  | newTerm t hl => exact hl.le
  | stand he => exact Nat.le_succ _
  | _ => exact le_rfl

lemma Move.src (hm : Move n0 inp n m out) : ∀ e ∈ out, e.src = n.id := by
  cases hm with
  | _ => simp [post]

variable {reads : List PendingRead} {x read : PendingRead}

lemma Move.acknowledgement (hm : Move n0 inp n m out) (hs : e ∈ out) (hb : e.body = .appendResponse resp)
    (hu : resp.success = true) : resp.term = n.state.currentTerm := by
  cases hm with
  | say dst msg hi =>
    rw [post, mem_singleton] at hs
    subst hs
    simp only at hb
    subst hb
    simp only [Message.Idle] at hi
    simp [hi] at hu
  | accept =>
    rw [post, mem_singleton] at hs
    subst hs
    simp only [Message.appendResponse.injEq] at hb
    rw [← hb]
  | answerSnapshot | sendAppend | sendSnapshot | stand | grant =>
    rw [post, mem_singleton] at hs
    subst hs
    simp at hb
  | _ => simp at hs

/-- Acknowledgements come from the node itself, in a term it had reached. -/
lemma RaftNode.react_acknowledgement (n : RaftNode) (ck : Int)
    (hu : ∀ machine, inp ≠ .restart machine) (he : e ∈ (n.react ck inp).2) (hb : e.body = .appendResponse resp) (hs : resp.success = true) :
    e.src = n.id ∧ n.state.currentTerm ≤ resp.term := by
  refine (n.react_activity ck hu).messages
    (fun m => m.id = n.id ∧ n.state.currentTerm ≤ m.state.currentTerm)
    (fun e => ∀ resp, e.body = .appendResponse resp → resp.success = true →
      e.src = n.id ∧ n.state.currentTerm ≤ resp.term) ?_ ⟨rfl, le_rfl⟩ e he resp hb
    hs
  rintro m k out hm ⟨hl, hr⟩
  refine ⟨⟨?_, hr.trans hm.currentTerm_le⟩, ?_⟩
  · exact (congrArg RaftConfig.id hm.cfg).trans hl
  intro e he resp hb hs
  refine ⟨(hm.src e he).trans hl, ?_⟩
  rw [hm.acknowledgement he hb hs]
  exact hr

lemma RaftNode.stop_pendingReads (n : RaftNode) (e : RaftError) : (n.stop e).pendingReads.Sublist n.pendingReads := by
  unfold stop
  split
  · exact List.Sublist.refl _
  · exact nil_sublist _

lemma RaftNode.persist_pendingReads (n : RaftNode) : n.persist.pendingReads.Sublist n.pendingReads := by
  unfold persist
  split
  · exact List.Sublist.refl _
  split
  · exact List.Sublist.refl _
  · exact stop_pendingReads _ _

/-- The ways the pending reads change. -/
lemma Move.pendingReads (ho : Move n0 inp n m out) : m.pendingReads.Sublist n.pendingReads ∨
    (∃ src resp id, inp = .receive src (.appendResponse resp) ∧ resp.success = true ∧
      resp.term = n.state.currentTerm ∧ id ∈ resp.readAcks ∧ n.conf = n0.conf ∧ m = n.acknowledgeRead src id) ∨
    (∃ req read, inp = .call (.readIndex req) ∧ read.id = req.id ∧ m.pendingReads = RaftNode.putRead read n.pendingReads) := by
  cases ho with
  | quiet hb =>
    left
    rw [core_pendingReads hb]
  | persist => exact .inl n.persist_pendingReads
  | stop e => exact .inl (n.stop_pendingReads e)
  | retire | newTerm => exact .inl (nil_sublist _)
  | readAck src resp id hr hs hl hc hm hu => exact .inr (.inl ⟨src, resp, id, hr, hs, hc, hm, hu, rfl⟩)
  | readIndex req ha hl read he => exact .inr (.inr ⟨req, read, ha, by rw [he], rfl⟩)
  | dropReads reads hk => exact .inl hk
  | _ => exact .inl (List.Sublist.refl _)

lemma mem_putRead (hm : x ∈ RaftNode.putRead read reads) : x = read ∨ x ∈ reads := by
  induction reads with
  | nil => simpa [putRead] using hm
  | cons head tl ih =>
    unfold putRead at hm
    split at hm
    · simpa using hm
    split at hm
    · rcases mem_cons.mp hm with new | old
      · exact .inl new
      · exact .inr (mem_cons_of_mem _ old)
    rcases mem_cons.mp hm with hf | hl
    · exact .inr (hf ▸ mem_cons_self)
    · exact (ih hl).imp_right (mem_cons_of_mem _)

/-- `std::map` keeps its keys in order, one entry each. -/
def ReadsOrdered (reads : List PendingRead) : Prop := reads.Pairwise (·.id < ·.id)

lemma ReadsOrdered.putRead (ho : ReadsOrdered reads) (read : PendingRead) : ReadsOrdered (RaftNode.putRead read reads) := by
  induction reads with
  | nil => exact pairwise_singleton _ _
  | cons head tl ih =>
    obtain ⟨hf, ht⟩ := pairwise_cons.mp ho
    unfold RaftNode.putRead
    split
    · rename_i hb
      refine pairwise_cons.mpr ⟨fun x hm => ?_, ho⟩
      rcases mem_cons.mp hm with rfl | hl
      · exact hb
      · exact hb.trans (hf x hl)
    split
    · rename_i hs
      exact pairwise_cons.mpr ⟨fun x hm => hs ▸ hf x hm, ht⟩
    refine pairwise_cons.mpr ⟨fun x hm => ?_, ih ht⟩
    rcases mem_putRead hm with rfl | hl
    · omega
    · exact hf x hl

lemma self_mem_putRead (read : PendingRead) (reads : List PendingRead) : read ∈ RaftNode.putRead read reads := by
  induction reads with
  | nil => simp [putRead]
  | cons head tl ih =>
    unfold putRead
    split
    · simp
    split
    · simp
    · exact mem_cons_of_mem _ ih

lemma ReadsOrdered.unique (ho : ReadsOrdered reads) (left : x ∈ reads) (right : y ∈ reads) (hs : x.id = y.id) : x = y := by
  induction reads with
  | nil => simp at left
  | cons head tl ih =>
    obtain ⟨hf, ht⟩ := pairwise_cons.mp ho
    rcases mem_cons.mp left with hat | hla
    · rcases mem_cons.mp right with ha | hl
      · rw [hat, ha]
      have := hf y hl
      rw [← hat] at this
      omega
    rcases mem_cons.mp right with ha | hl
    · have := hf x hla
      rw [← ha] at this
      omega
    · exact ih ht hla hl

/-- An entry of the new map under the read's id is the read itself. -/
lemma ReadsOrdered.eq_of_mem_putRead (ho : ReadsOrdered reads)
    (hm : x ∈ RaftNode.putRead read reads) (hs : x.id = read.id) : x = read :=
  (ho.putRead read).unique hm (self_mem_putRead read reads) hs

lemma Move.readsOrdered (hm : Move n0 inp n m out) (ho : ReadsOrdered n.pendingReads) : ReadsOrdered m.pendingReads := by
  rcases hm.pendingReads with hk | ⟨src, resp, id, _, _, _, _, _, rfl⟩ |
    ⟨request, read, _, _, ha⟩
  · exact ho.sublist hk
  · refine pairwise_map.mpr (ho.imp fun {x y} hl => ?_)
    split <;> split <;> exact hl
  · rw [ha]
    exact ho.putRead read

/-- The pending reads of every node are ordered after any call. -/
lemma RaftNode.react_readsOrdered (ho : ReadsOrdered n.pendingReads)
    (ck : Int) (inp : Input) : ReadsOrdered (n.react ck inp).1.pendingReads :=
  react_invariant (fun n => ReadsOrdered n.pendingReads) (fun hm => hm.readsOrdered) (fun _ _ => List.Pairwise.nil) ho

end Cnetmod.Raft
