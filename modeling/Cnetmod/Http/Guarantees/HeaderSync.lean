import Cnetmod.Http.Guarantees.HeaderRoundTrip
import Cnetmod.Http.Spec.SessionRuns

/-!
# Header tables under SETTINGS

The peer's decoder starts with a table of 4096 bytes and changes it only when a
header block says so; no block does. The session sets its encoder's limit to
whatever SETTINGS ask for. As long as the encoder's table stays within 4096 bytes
it is a beginning of the decoder's, and every block is read as it was meant.
-/
namespace Cnetmod.Http.V2

open Function Coding Consensus HeaderCompression List

namespace HeaderCompression

/-- What the fields take when they are all added to a table. -/
def fieldsSize (fields : List HeaderField) : Nat :=
  total Entry.size (fields.map fun field => ⟨field.name, field.value⟩)

lemma fieldsSize_cons (f : HeaderField) (fs : List HeaderField) :
    fieldsSize (f :: fs) = Entry.size ⟨f.name, f.value⟩ + fieldsSize fs := by
  simp [fieldsSize]

lemma fieldsSize_append (xs ys : List HeaderField) : fieldsSize (xs ++ ys) = fieldsSize xs + fieldsSize ys := by
  simp [fieldsSize]

lemma fieldsSize_sublist (sub : xs.Sublist ys) : fieldsSize xs ≤ fieldsSize ys := by
  induction sub with
  | slnil => exact le_rfl
  | cons f _ ih =>
    rw [fieldsSize_cons]
    omega
  | cons_cons f _ ih =>
    rw [fieldsSize_cons, fieldsSize_cons]
    omega

/-- The table does not outgrow the one the peer's decoder has. -/
def Roomy (e : HeaderCompression) (fields : List HeaderField) : Prop :=
  e.dynamicTableLimit ≤ 4096 ∨ e.dynamicTableBytes + fieldsSize fields ≤ 4096

instance (e : HeaderCompression) (fields : List HeaderField) : Decidable (e.Roomy fields) :=
  inferInstanceAs (Decidable (_ ∨ _))

/-- The encoder's table is a beginning of the decoder's. -/
structure Behind (e d : HeaderCompression) : Prop where
  encoder : e.Sound
  decoder : d.Sound
  limit : d.dynamicTableLimit = 4096
  begins : e.dynamicTable <+: d.dynamicTable

/-- And `fields` can be sent. -/
structure Trailing (fields : List HeaderField) (e d : HeaderCompression) : Prop extends Behind e d where
  sendable : e.Sendable fields
  roomy : e.Roomy fields

variable {e m : HeaderCompression}

lemma Roomy.step (hs : e.Sound) (hr : e.Roomy (fld :: fs)) :
    (if e.stores fld then e.insert ⟨fld.name, fld.value⟩ else e).Roomy fs := by
  have hg := bytes_insert_le hs ⟨fld.name, fld.value⟩
  unfold Roomy at hr ⊢
  rw [fieldsSize_cons] at hr
  split
  · rw [insert_limit]
    omega
  · omega

lemma trailing_synchrony : Synchrony Trailing where
  begins ht := ht.begins
  fits ht := ht.sendable.fits
  step := by
    intro f fs e d ht
    obtain ⟨⟨he, ha, hl, hb⟩, hs, hr⟩ := ht
    refine ⟨?_, hs.step he, hr.step he⟩
    split
    · refine ⟨he.insert _, ha.insert _, by rw [insert_limit, hl], insert_prefix he ha hb ?_⟩
      unfold Roomy at hr
      rw [fieldsSize_cons] at hr
      omega
    · exact ⟨he, ha, hl, hb⟩

/-- From any codec with the table of `d` the block is read as `fields`, whatever it remembers,
and leaves the codec ahead of `e`. -/
def Reads (d : HeaderCompression) (fields : List HeaderField) (block : Bytes) (e : HeaderCompression) :
    Prop :=
  ∀ {m}, SameTable m d → m.MemoSound → ∃ m' got, m.decode block = (m', .ok got) ∧
    List.Forall₂ Delivered fields got ∧ m'.MemoSound ∧ Behind e m'

lemma Behind.of_sameTable (hb : Behind e d) (hs : SameTable m d) : Behind e m where
  encoder := hb.encoder
  decoder := hs.sound hb.decoder
  limit := hs.limit.trans hb.limit
  begins := hs.table ▸ hb.begins

lemma encode_reads (ht : Trailing fs e d) : ∃ e' b, e.encode fs = (e', .ok b) ∧ Reads d fs b e' := by
  obtain ⟨e', b, -, -, hn, -⟩ := decodeLoop_encode (l := { codec := d }) trailing_synchrony fs ht
  refine ⟨e', b, hn, fun {m} hb hc => ?_⟩
  have hr : Trailing fs e m := ⟨ht.toBehind.of_sameTable hb, ht.sendable, ht.roomy⟩
  obtain ⟨e'', block', l, got, he, hf, ho, hg, hl⟩ := decodeLoop_encode (l := { codec := m }) trailing_synchrony fs hr
  rw [hn] at he
  cases he
  obtain ⟨m', ha, hm, hs⟩ := decode_eq_loop hc (hf _ (le_rfl))
  rw [ho] at ha
  exact ⟨m', got, ha, hg, hm, hl.toBehind.of_sameTable hs⟩

/-- What an encoder holds after a list of fields. -/
lemma encode_grows (hs : e.Sound) (fs : List HeaderField) : (e.encode fs).1.Sound ∧
      (e.encode fs).1.dynamicTableBytes ≤ e.dynamicTableBytes + fieldsSize fs ∧
      (e.encode fs).1.dynamicTable.length ≤ e.dynamicTable.length + fs.length := by
  induction fs generalizing e with
  | nil => exact ⟨hs, by simp [encode], by simp [encode]⟩
  | cons f fs ih =>
    have hy := bytes_insert_le hs ⟨f.name, f.value⟩
    have he := length_insert_le hs ⟨f.name, f.value⟩
    rw [encode, fieldsSize_cons, length_cons]
    split
    · exact ⟨hs, by dsimp only; omega, by dsimp only; omega⟩
    dsimp only
    rw [encodeField_codec]
    split
    · obtain ⟨ho, hb, hl⟩ := ih (hs.insert ⟨f.name, f.value⟩)
      exact ⟨ho, by omega, by omega⟩
    · obtain ⟨ho, hb, hl⟩ := ih hs
      exact ⟨ho, by omega, by omega⟩

/-- Nothing is added to a table without room. -/
structure Bare (d : HeaderCompression) (fields : List HeaderField) (e m : HeaderCompression) : Prop where
  table : e.dynamicTable = []
  limit : e.dynamicTableLimit = 0
  reader : m = d
  named : ∀ field ∈ fields, field.name ≠ []
  short : ∀ field ∈ fields, wireSize field.name < 2 ^ 32 ∧ wireSize field.value < 2 ^ 32

lemma bare_synchrony (d : HeaderCompression) : Synchrony (Bare d) where
  begins hb := hb.table ▸ nil_prefix
  fits hb :=
    { named := hb.named _ mem_cons_self
      name := (hb.short _ mem_cons_self).1
      value := (hb.short _ mem_cons_self).2
      few := by rw [hb.table]; decide }
  step := by
    intro fld fs e m hb
    have hk : e.stores fld = false := by simp [stores, indexed, hb.limit]
    rw [hk]
    exact ⟨hb.table, hb.limit, hb.reader, fun f hm => hb.named f (mem_cons_of_mem _ hm),
      fun f hm => hb.short f (mem_cons_of_mem _ hm)⟩

lemma encode_named (he : e.encode fs = (e', .ok b)) : ∀ f ∈ fs, f.name ≠ [] := by
  induction fs generalizing e e' b with
  | nil => simp
  | cons f fs ih =>
    rw [encode] at he
    split at he
    · cases he
    rename_i hn
    rcases rest : (e.encodeField f).1.encode fs with ⟨next, code | tail⟩
    · simp [rest, Except.map] at he
    · exact forall_mem_cons.mpr ⟨by simpa using hn, ih rest⟩

/-- A block encoded in advance is read from any table, and leaves it alone. -/
lemma preencoded_reads (pre : PreencodedHeaderBlock)
    (hs : ∀ field ∈ pre.fields, wireSize field.name < 2 ^ 32 ∧ wireSize field.value < 2 ^ 32) (ha : m.MemoSound) :
    ∃ m' got, m.decode pre.block = (m', .ok got) ∧ List.Forall₂ Delivered pre.fields got ∧ m'.MemoSound ∧ SameTable m' m := by
  have hb : HeaderCompression.encode { dynamicTableLimit := 0 } pre.fields =
      ((HeaderCompression.encode { dynamicTableLimit := 0 } pre.fields).1, .ok pre.block) :=
    Prod.ext rfl pre.built
  obtain ⟨e, b, l, got, he, hc, ho, hf, hl⟩ := decodeLoop_encode (l := { codec := m }) (bare_synchrony m) pre.fields
      (e := { dynamicTableLimit := 0 }) ⟨rfl, rfl, rfl, encode_named hb, hs⟩
  obtain rfl : pre.block = b := by
    rw [hb] at he
    exact Except.ok.inj (Prod.ext_iff.mp he).2
  obtain ⟨m', hr, hm, hg⟩ := decode_eq_loop ha (hc _ (le_rfl))
  rw [ho] at hr
  exact ⟨m', got, hr, hf, hm, hl.reader ▸ hg⟩

end HeaderCompression

/-- The decoder after these blocks. -/
def reader (d : HeaderCompression) (blocks : List (List HeaderField × Bytes)) : HeaderCompression :=
  blocks.foldl (fun d sent => (d.decode sent.2).1) d

/-- Every block is read as the fields it was encoded from. -/
def ReadsAll : HeaderCompression → List (List HeaderField × Bytes) → Prop
  | _, [] => True
  | d, (fields, block) :: rest =>
    (∃ got, (d.decode block).2 = .ok got ∧ List.Forall₂ Delivered fields got) ∧ ReadsAll (d.decode block).1 rest

lemma readsAll_concat (d : HeaderCompression) (blocks : List (List HeaderField × Bytes))
    (all : ReadsAll d blocks) (hr : (reader d blocks).decode b = (m, .ok got)) (he : List.Forall₂ Delivered fs got) :
    ReadsAll d (blocks ++ [(fs, b)]) ∧ reader d (blocks ++ [(fs, b)]) = m := by
  constructor
  · induction blocks generalizing d with
    | nil => exact ⟨⟨got, by rw [show d.decode b = (m, .ok got) from hr], he⟩, trivial⟩
    | cons sent blocks ih => exact ⟨all.1, ih _ all.2 hr⟩
  · rw [reader, foldl_append]
    exact congrArg Prod.fst hr

namespace Core

/-- The fields can be encoded now, and no block waits for the writer. -/
def Safe (c : Core) (fields : List HeaderField) : Prop :=
  fields ≠ [] → (∀ id, c.waiting id = none) ∧ c.encoder.Sendable fields ∧ c.encoder.Roomy fields

/-- The peer's decoder has read every block, and is or will be ahead of the encoder. -/
structure Synced (c : Core) : Prop where
  reads : ReadsAll {} c.blocks
  memo : (reader {} c.blocks).MemoSound
  ahead : ((∀ id, c.waiting id = none) ∧ Behind c.encoder (reader {} c.blocks)) ∨
    ∃ id fields block, (∀ other, other ≠ id → c.waiting other = none) ∧
      c.waiting id = some (fields, block) ∧ Reads (reader {} c.blocks) fields block c.encoder

variable {c d : Core} {fields rest : List HeaderField}

lemma Safe.sublist (hs : c.Safe more) (sub : fields.Sublist more) : c.Safe fields := by
  intro some
  have ho : more ≠ [] := fun none => some (sublist_nil.mp (none ▸ sub))
  obtain ⟨hf, ⟨ha, hn⟩, hr⟩ := hs ho
  have hb := fieldsSize_sublist sub
  have hl := sub.length_le
  refine ⟨hf, ⟨fun f hm => ha f (sub.subset hm), fun f hm => hn.1 f (sub.subset hm), ?_⟩, ?_⟩
  · have := hn.2
    omega
  · unfold Roomy at hr ⊢
    omega

variable {block : Bytes}

/-- A block that leaves the decoder's table alone. -/
lemma Synced.quiet (hy : c.Synced) (he : (reader {} c.blocks).decode block = (m, .ok got))
    (hc : List.Forall₂ Delivered fields got) (hg : m.MemoSound) (hs : SameTable m (reader {} c.blocks)) :
    ({ c with blocks := c.blocks ++ [(fields, block)] } : Core).Synced := by
  obtain ⟨hr, next⟩ := readsAll_concat {} c.blocks hy.reads he hc
  refine ⟨hr, next ▸ hg, ?_⟩
  rw [next]
  rcases hy.ahead with ⟨hf, hb⟩ | ⟨id, held, block', ho, hw, hl⟩
  · exact .inl ⟨hf, hb.of_sameTable hs⟩
  · refine .inr ⟨id, held, block', ho, hw, fun {m'} ha hm => hl ?_ hm⟩
    exact ⟨ha.table.trans hs.table, ha.bytes.trans hs.bytes, ha.limit.trans hs.limit⟩

lemma Synced.behind (hs : c.Synced) (hf : ∀ id, c.waiting id = none) : Behind c.encoder (reader {} c.blocks) := by
  rcases hs.ahead with ⟨-, hb⟩ | ⟨id, held, b, -, hw, -⟩
  · exact hb
  · rw [hf id] at hw
    cases hw

/-- Fields that can be encoded are: what is then read is what was sent. -/
lemma Synced.encode (hy : c.Synced) (ha : c.Safe fields) (some : fields ≠ []) :
    ∃ encoder block, c.encoder.encode fields = (encoder, .ok block) ∧ Reads (reader {} c.blocks) fields block encoder := by
  obtain ⟨hf, hs, hr⟩ := ha some
  exact encode_reads ⟨hy.behind hf, hs, hr⟩

/-- The reader takes a block that it can read. -/
lemma Synced.queued (hs : c.Synced) {encoder : HeaderCompression} (hr : Reads (reader {} c.blocks) fields block encoder)
    {waiting : Nat → Option (List HeaderField × Bytes)} (hf : ∀ id, waiting id = none) :
    ({ c with encoder, blocks := c.blocks ++ [(fields, block)], waiting } : Core).Synced := by
  obtain ⟨m, got, he, ha, hm, hb⟩ := hr ⟨rfl, rfl, rfl⟩ hs.memo
  obtain ⟨all, next⟩ := readsAll_concat {} c.blocks hs.reads he ha
  exact ⟨all, next ▸ hm, .inl ⟨hf, next ▸ hb⟩⟩

lemma decode_nil (hm : m.MemoSound) : ∃ m', m.decode [] = (m', .ok []) ∧ m'.MemoSound ∧ SameTable m' m :=
  decode_eq_loop (l := { codec := m }) hm rfl

lemma Synced.move (hs : c.Synced)
    (hj : ∀ pre, P pre → ∀ field ∈ pre.fields, wireSize field.name < 2 ^ 32 ∧ wireSize field.value < 2 ^ 32)
    (hg : c.Safe fields) (hk : Move P c fields d) : d.Synced := by
  cases hk with
  | @headers _ encoder block hen =>
    by_cases none : fields = []
    · subst none
      cases hen
      obtain ⟨m, hb, hm, ha⟩ := decode_nil hs.memo
      exact hs.quiet hb .nil hm ha
    obtain ⟨encoder', block', he, hr⟩ := hs.encode hg none
    rw [hen] at he
    cases he
    exact hs.queued hr (hg none).1
  | @refuse _ encoder code hen =>
    by_cases none : fields = []
    · subst none
      cases hen
    obtain ⟨encoder', block', he, -⟩ := hs.encode hg none
    rw [hen] at he
    cases he
  | @preencoded pre hof =>
    obtain ⟨m, got, hb, hc, hm, ha⟩ := preencoded_reads pre (hj pre hof) hs.memo
    exact hs.quiet hb hc hm ha
  | @release id fields block hh =>
    rcases hs.ahead with ⟨hf, -⟩ | ⟨only, held', block', ho, hw, hr⟩
    · rw [hf id] at hh
      cases hh
    have ha : id = only := by
      by_contra o
      rw [ho id o] at hh
      cases hh
    rw [ha, hw] at hh
    cases hh
    refine hs.queued hr fun o => ?_
    by_cases hhe : o = id
    · rw [hhe, update_self]
    · rw [update_of_ne hhe]
      exact ho o (ha ▸ hhe)
  | _ => exact ⟨hs.reads, hs.memo, hs.ahead⟩

lemma encoder_move (hm : Move P c fields d) : d.encoder = c.encoder ∨ d.encoder = (c.encoder.encode fields).1 := by
  cases hm with
  | headers he | refuse he => exact .inr (by rw [he])
  | _ => exact .inl rfl

lemma waiting_move (hf : ∀ id, c.waiting id = none) (hm : Move P c fields d) : ∀ id, d.waiting id = none := by
  cases hm with
  | release hh =>
    rw [hf] at hh
    cases hh
  | _ => exact hf

/-- What is left to encode can still be encoded after a part of it. -/
lemma Synced.safe_move (hy : c.Synced) (ha : c.Safe (fields ++ rest)) (ho : Move P c fields d) : d.Safe rest := by
  intro some
  obtain ⟨hf, hs, hr⟩ := ha (append_ne_nil_of_right_ne_nil _ some)
  refine ⟨waiting_move hf ho, ?_⟩
  rcases encoder_move ho with hsm | hg
  · rw [hsm]
    exact (ha.sublist (sublist_append_right ..) some).2
  obtain ⟨-, hb, hl⟩ := encode_grows (hy.behind hf).encoder fields
  have hc := encode_limit c.encoder fields
  rw [← hg] at hb hl hc
  obtain ⟨hn, ht, few⟩ := hs
  rw [length_append] at few
  refine ⟨⟨fun f hm => hn f (mem_append_right _ hm), fun f hm => ht f (mem_append_right _ hm), by omega⟩, ?_⟩
  unfold Roomy at hr ⊢
  rw [fieldsSize_append] at hr
  omega

lemma Synced.moves (hs : c.Synced)
    (hh : ∀ pre, P pre → ∀ field ∈ pre.fields, wireSize field.name < 2 ^ 32 ∧ wireSize field.value < 2 ^ 32)
    (ha : c.Safe (fields ++ rest)) (ho : Moves P c fields d) : d.Synced ∧ d.Safe rest := by
  induction ho with
  | refl => exact ⟨hs, ha⟩
  | step hm _ ih =>
    rw [append_assoc] at ha
    exact ih (hs.move hh (ha.sublist (sublist_append_left ..)) hm) (hs.safe_move ha hm)

lemma Synced.turn (hs : c.Synced)
    (hh : ∀ pre, P pre → ∀ field ∈ pre.fields, wireSize field.name < 2 ^ 32 ∧ wireSize field.value < 2 ^ 32)
    (hb : c.Safe fields) (ht : Turn P c fields d) : d.Synced := by
  obtain ⟨all, hm, hf⟩ := ht
  obtain ⟨hs, hb⟩ := hs.moves hh (all ▸ hb) hm
  cases hf with
  | done => exact hs
  | @hold id _ encoder block some hen =>
    obtain ⟨encoder', block', he, hr⟩ := hs.encode hb some
    rw [hen] at he
    cases he
    refine ⟨hs.reads, hs.memo, .inr ⟨id, _, block, fun o ha => ?_, ?_, hr⟩⟩
    · dsimp only
      rw [update_of_ne ha]
      exact (hb some).1 o
    · dsimp only
      rw [update_self]

/-- A new limit cuts the encoder's table. -/
lemma Synced.settings (hs : c.Synced) (p : Settings) : (c.settings p).Synced := by
  have cut : ∀ {m}, Behind c.encoder m → Behind (c.encoder.setDynamicTableLimit p.headerTableSize) m := fun hb => { hb with
      encoder := hb.encoder.setDynamicTableLimit _
      begins := (setDynamicTableLimit_begins hb.encoder _).trans hb.begins }
  refine ⟨hs.reads, hs.memo, ?_⟩
  rcases hs.ahead with ⟨hf, hb⟩ | ⟨id, held, b, ho, hw, hr⟩
  · exact .inl ⟨hf, cut hb⟩
  refine .inr ⟨id, held, b, ho, hw, fun {m} ha he => ?_⟩
  obtain ⟨m', got, hc, hg, hm, hb⟩ := hr ha he
  exact ⟨m', got, hc, hg, hm, cut hb⟩

end Core

namespace Session

/-- No block is encoded and waits for the writer. -/
def writerFree (s : Session) : Bool := s.sourceWrites.entries.all fun entry => entry.2.waiting.isNone

variable {s : Session}

lemma waiting_of_writerFree (hf : s.writerFree = true) (id : Nat) : s.core.waiting id = none := by
  change (s.sourceWrites.lookup id).bind SourceWrite.waiting = none
  cases hh : s.sourceWrites.lookup id with
  | none => rfl
  | some write =>
    have hl := AList.mem_lookup_iff.mp (Option.mem_def.mpr hh)
    exact Option.isNone_iff_eq_none.mp (all_eq_true.mp hf _ hl)

/-- The blocks of a step can be read by a decoder of 4096 bytes: the encoder, under the limit
that SETTINGS leave it, stays within that size or within its limit; every field has a name
and strings of less than 2^32 bytes; and no other block is waiting. -/
structure SafeStep (cfg : SessionConfig) (s : Session) (a : Step) : Prop where
  encodes : s.mayEncode cfg a ≠ [] → s.writerFree = true ∧
    (s.heard a).encoder.Sendable (s.mayEncode cfg a) ∧ (s.heard a).encoder.Roomy (s.mayEncode cfg a)
  offers : ∀ pre, a.Offers pre → ∀ field ∈ pre.fields, wireSize field.name < 2 ^ 32 ∧ wireSize field.value < 2 ^ 32

lemma synced_heard (hs : s.core.Synced) (a : Step) : (s.heard a).Synced := by
  cases a with
  | frame hdr pl follows =>
    simp only [heard, granted]
    split
    · split
      · exact hs
      · exact hs.settings _
    · unfold Core.grant
      split
      · exact ⟨hs.reads, hs.memo, hs.ahead⟩
      split
      · exact ⟨hs.reads, hs.memo, hs.ahead⟩
      · exact hs
    · exact hs
  | _ => exact hs

lemma SafeStep.heard (ha : s.SafeStep cfg a) : (s.heard a).Safe (s.mayEncode cfg a) := by
  intro some
  obtain ⟨hf, hs⟩ := ha.encodes some
  rw [(heard_kept s a).2.2]
  exact ⟨waiting_of_writerFree hf, hs⟩

end Session

/-- In every run whose steps are safe, the peer's decoder reads every header block as the
fields it was encoded from. -/
theorem header_blocks_readable {cfg : SessionConfig} {s : Session}
    (reached : Reached (Session.step cfg) (Session.SafeStep cfg) {} s) :
    ReadsAll {} s.sentHeaders := by
  have hb : ({} : Session).core.Synced :=
    { reads := trivial
      memo := fun hf => absurd rfl hf
      ahead := .inl ⟨fun _ => rfl, ⟨rfl, Nat.zero_le _⟩, ⟨rfl, Nat.zero_le _⟩, rfl, prefix_refl _⟩ }
  refine (reached.invariant (fun s : Session => s.core.Synced) hb ?_).reads
  intro s a t hs ha hc
  obtain ⟨fs, sub, ht⟩ := Session.turn_step hc
  exact (Session.synced_heard hs a).turn ha.offers (ha.heard.sublist sub) ht

/-- A field whose entry takes `44 + size` bytes. -/
def bulky (size : Nat) : HeaderField := { name := "content-type", value := List.replicate size 0 }

def getOn (streamId : Nat) : Step :=
  .frame { type := .headers, flags := flagEndHeaders ||| flagEndStream, streamId } [0x82, 0x84, 0x86] false

/-- A test for frames that let no trailers go and for responses whose fields are encoded when they are sent. -/
def Session.checked (s : Session) : Step → Bool
  | .frame header payload follows => (s.mayEncode {} (.frame header payload follows)).isEmpty
  | .dispatch r => r.preencodedHeaders.isNone && s.writerFree && r.encodes.all (·.name ≠ []) &&
    decide (s.encoder.Narrow r.encodes) && decide (s.encoder.Roomy r.encodes)
  | _ => false

lemma Session.SafeStep.of_checked {s : Session} {a : Step} (safe : s.checked a = true) : s.SafeStep {} a := by
  cases a with
  | frame header payload follows =>
    exact ⟨fun some => absurd (isEmpty_iff.mp safe) some, fun _ offered => offered.elim⟩
  | dispatch r =>
    simp only [checked, Bool.and_eq_true, decide_eq_true_eq, all_eq_true, Option.isNone_iff_eq_none] at safe
    obtain ⟨⟨⟨⟨plain, free⟩, named⟩, narrow⟩, roomy⟩ := safe
    refine ⟨fun _ => ⟨free, ⟨named, narrow⟩, roomy⟩, fun pre offered => ?_⟩
    simp [Step.Offers, ServerResponse.usePreencoded, plain] at offered
  | _ => cases safe

/-- The peer lowers the table to 100 bytes and raises it to 8192 later; a response before and one after. -/
def resized : List Step :=
  [.frame { type := .settings } [0, 1, 0, 0, 0, 100] false, getOn 1, .dispatch { headers := [bulky 5] },
    .frame { type := .settings } [0, 1, 0, 0, 0x20, 0] false, getOn 3, .dispatch { headers := [bulky 5, bulky 6] }]

def resizedRun : Option Session :=
  Consensus.runChecked (Session.step {}) (fun s a => s.checked a = true) {} resized

lemma resizedRun_isSome : resizedRun.isSome = true := by decide +kernel

theorem header_blocks_readable_resized :
    ∃ s, resizedRun = some s ∧ s.encoder.dynamicTableLimit = 8192 ∧ s.sentHeaders.length = 2 ∧
      ReadsAll {} s.sentHeaders := by
  have ran := (Option.some_get resizedRun_isSome).symm
  refine ⟨_, ran, by decide +kernel, by decide +kernel, ?_⟩
  have checked := Reached.start.runChecked resized ran
  refine @header_blocks_readable {} _ (checked.invariant (Reached _ (Session.SafeStep {}) _) .start ?_)
  exact fun before safe taken => before.next (.of_checked safe) taken

/-- Whether the decoder takes every block. -/
def accepted : HeaderCompression → List (List HeaderField × Bytes) → Bool
  | _, [] => true
  | d, (_, block) :: rest => (d.decode block).2.isOk && accepted (d.decode block).1 rest

lemma ReadsAll.accepted {d : HeaderCompression} {blocks : List (List HeaderField × Bytes)}
    (hr : ReadsAll d blocks) : accepted d blocks = true := by
  induction blocks generalizing d with
  | nil => rfl
  | cons sent blocks ih =>
    obtain ⟨⟨got, he, -⟩, rest⟩ := hr
    rw [V2.accepted, he, ih rest]
    rfl

/-- The peer allows 8192 bytes; 37 fields of more than 4096 bytes together are sent, and then
the first again. -/
def raisedLimit : List Step :=
  [.frame { type := .settings } [0, 1, 0, 0, 0x20, 0] false,
    getOn 1, .dispatch { headers := (List.range 37).map fun i => bulky (50 + i) },
    getOn 3, .dispatch { headers := [bulky 50] }]

theorem raised_limit_unreadable : ∃ s, raisedLimit.foldlM (Session.step {}) {} = some s ∧ ¬ ReadsAll {} s.sentHeaders := by
  refine ⟨(raisedLimit.foldlM (Session.step {}) {}).get (by decide +kernel), (Option.some_get _).symm, fun hr => ?_⟩
  exact absurd hr.accepted (by decide +kernel)

end Cnetmod.Http.V2
