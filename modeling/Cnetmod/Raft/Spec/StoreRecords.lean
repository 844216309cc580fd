import Cnetmod.Raft.Source.LeveldbStore

/-!
# Keys and records of the LevelDB store

Every value of the source's types survives being written and read, and log keys
are in the order of their indexes and before all others.
-/
namespace Cnetmod.Raft

open List

open Coding (Bytes ascii)

/-- The text has a size of 64 bits. -/
def TextFits (s : String) : Prop := (stringBytes s).length < 2 ^ 64

instance (s : String) : Decidable (TextFits s) := inferInstanceAs (Decidable (_ < _))

def TextsFit (values : List NodeId) : Prop := values.length < 2 ^ 64 ∧ ∀ s ∈ values, TextFits s

instance (values : List NodeId) : Decidable (TextsFit values) := inferInstanceAs (Decidable (_ ∧ _))

def ConfigurationState.Fits (conf : ConfigurationState) : Prop :=
  TextsFit conf.voters ∧ TextsFit conf.oldVoters ∧ TextsFit conf.learners

instance (conf : ConfigurationState) : Decidable conf.Fits := inferInstanceAs (Decidable (_ ∧ _ ∧ _))

def HardState.Fits (s : HardState) : Prop :=
  s.currentTerm < 2 ^ 64 ∧ TextFits s.votedFor ∧ s.commitIndex < 2 ^ 64 ∧ s.lastApplied < 2 ^ 64

instance (s : HardState) : Decidable s.Fits := inferInstanceAs (Decidable (_ ∧ _ ∧ _ ∧ _))

def SnapshotMetadata.Fits (m : SnapshotMetadata) : Prop :=
  m.lastIncludedIndex < 2 ^ 64 ∧ m.lastIncludedTerm < 2 ^ 64 ∧ TextFits m.uri ∧ m.configuration.Fits

instance (m : SnapshotMetadata) : Decidable m.Fits := inferInstanceAs (Decidable (_ ∧ _ ∧ _ ∧ _))

def LogEntry.Fits (e : LogEntry) : Prop :=
  e.index < 2 ^ 64 ∧ e.term < 2 ^ 64 ∧ TextFits e.command ∧ e.configuration.Fits

instance (e : LogEntry) : Decidable e.Fits := inferInstanceAs (Decidable (_ ∧ _ ∧ _ ∧ _))

lemma reader_bind {read : RecordReader α} {next : α → RecordReader β} {v : α} (done : read bs = .ok (v, tl)) :
    (read >>= next) bs = next v tl := by
  simp only [bind, StateT.bind, done, Except.bind]

lemma getU64_put (hf : v < 2 ^ 64) (tl : Bytes) : getU64 (putU64 v ++ tl) = .ok (v, tl) := by
  have he : (putU64 v).length = 8 := Coding.length_littleEndian 8 v
  have hn : ¬ (putU64 v ++ tl).length < 8 := by
    rw [length_append]
    omega
  rw [getU64, if_neg hn, take_left' he, drop_left' he, putU64, Coding.littleEndianValue_littleEndian hf]

lemma bytesString_stringBytes (s : String) : bytesString (stringBytes s) = s := by
  have hw : (⟨(stringBytes s).toArray⟩ : ByteArray) = s.toByteArray := by
    rw [stringBytes]
  rw [bytesString, hw, String.fromUTF8?, dif_pos s.isValidUTF8]
  rfl

lemma getString_put (hf : TextFits s) (tl : Bytes) : getString (putString s ++ tl) = .ok (s, tl) := by
  rw [getString, putString, append_assoc, reader_bind (getU64_put hf _), getText,
    if_neg (by simp), take_left' rfl, drop_left' rfl, bytesString_stringBytes]

lemma getEach_put (fit : ∀ s ∈ vs, TextFits s) (tl : Bytes) :
    getEach vs.length (vs.flatMap putString ++ tl) = .ok (vs, tl) := by
  induction vs with
  | nil => rfl
  | cons v vs ih =>
    obtain ⟨hf, ho⟩ := forall_mem_cons.mp fit
    rw [length_cons, flatMap_cons, append_assoc, getEach, reader_bind (getString_put hf _), reader_bind (ih ho)]
    rfl

lemma getStrings_put (fit : TextsFit vs) (tl : Bytes) : getStrings (putStrings vs ++ tl) = .ok (vs, tl) := by
  rw [getStrings, putStrings, append_assoc, reader_bind (getU64_put fit.1 _)]
  exact getEach_put fit.2 tl

lemma putStrings_ne_nil (vs : List NodeId) : putStrings vs ≠ [] := by
  rw [putStrings, putU64]
  simp [Coding.littleEndian]

lemma getConfig_put (hf : conf.Fits) (tl : Bytes) : getConfig (putConfig conf ++ tl) = .ok (conf, tl) := by
  have hm : putStrings conf.learners ++ tl ≠ [] := by simp [putStrings_ne_nil]
  rw [getConfig, putConfig, append_assoc, append_assoc,
    reader_bind (getStrings_put hf.1 _), reader_bind (getStrings_put hf.2.1 _)]
  have hs : (get : RecordReader Bytes) (putStrings conf.learners ++ tl) = .ok (_, _) := rfl
  rw [reader_bind hs, if_neg hm, reader_bind (getStrings_put hf.2.2 _)]
  rfl

lemma deserializeState_serialize (hf : s.Fits) : deserializeState (serializeState s) = .ok s := by
  obtain ⟨ht, hv, hc, ha⟩ := hf
  have hr : getState (serializeState s ++ []) = .ok (s, []) := by
    simp only [serializeState, append_assoc]
    rw [getState, reader_bind (getU64_put ht _), reader_bind (getString_put hv _),
      reader_bind (getU64_put hc _), reader_bind (getU64_put ha _)]
    rfl
  rw [append_nil] at hr
  rw [deserializeState, StateT.run', hr]
  rfl

lemma deserializeSnapshot_serialize (hf : m.Fits) : deserializeSnapshot (serializeSnapshot m) = .ok m := by
  obtain ⟨hi, ht, uri, hc⟩ := hf
  have hr : getSnapshot (serializeSnapshot m ++ []) = .ok (m, []) := by
    simp only [serializeSnapshot, append_assoc]
    rw [getSnapshot, reader_bind (getU64_put hi _), reader_bind (getU64_put ht _),
      reader_bind (getString_put uri _), reader_bind (getConfig_put hc _)]
    rfl
  rw [append_nil] at hr
  rw [deserializeSnapshot, StateT.run', hr]
  rfl

lemma ofCode_code (type : EntryType) : EntryType.ofCode type.code = type := by cases type <;> rfl

lemma code_lt (type : EntryType) : type.code < 2 ^ 64 := by cases type <;> decide

lemma deserializeEntry_serialize (hf : e.Fits) : deserializeEntry e.index (serializeEntry e) = .ok e := by
  obtain ⟨-, ht, hc, ho⟩ := hf
  have hr : getEntry e.index (serializeEntry e ++ []) = .ok (e, []) := by
    simp only [serializeEntry, append_assoc]
    rw [getEntry, reader_bind (getU64_put ht _), reader_bind (getU64_put (code_lt e.type) _),
      reader_bind (getString_put hc _), reader_bind (getConfig_put ho _), ofCode_code]
    rfl
  rw [append_nil] at hr
  rw [deserializeEntry, StateT.run', hr]
  rfl

lemma index_digits (hf : i < 2 ^ 64) : i < 10 ^ 20 := hf.trans (by decide)

lemma isLogKey_logKey (i : Nat) : isLogKey (logKey i) = true := by
  rw [isLogKey, isPrefixOf_iff_prefix]
  exact prefix_append _ _

lemma parseLogIndex_logKey (hf : i < 2 ^ 64) : parseLogIndex (logKey i) = .ok i := by
  have ho : logPrefix.length = 4 := by decide
  rw [parseLogIndex, isLogKey_logKey, if_pos rfl, logKey, drop_left' ho,
    Coding.fromChars_decimalDigits (by decide) (index_digits hf) hf]

lemma logKey_lt_iff (hf : a < 2 ^ 64) (hs : b < 2 ^ 64) : logKey a < logKey b ↔ a < b := by
  rw [← Coding.decimalDigits_lt_iff (index_digits hf) (index_digits hs)]
  simp [logKey, logPrefix, ascii]

lemma logKey_le_iff (hf : a < 2 ^ 64) (hs : b < 2 ^ 64) : logKey a ≤ logKey b ↔ a ≤ b := by
  rw [← not_lt, logKey_lt_iff hs hf, not_lt]

lemma logKey_inj (hf : a < 2 ^ 64) (hs : b < 2 ^ 64) : logKey a = logKey b ↔ a = b := by
  rw [le_antisymm_iff, logKey_le_iff hf hs, logKey_le_iff hs hf, ← le_antisymm_iff]

lemma logPrefix_le_logKey (i : Nat) : logPrefix ≤ logKey i := by
  rw [← not_lt]
  simp [logKey, logPrefix, ascii]

/-- Keys of the store's own records come after the log. -/
lemma log_lt_meta (tail suffix : Bytes) : logPrefix ++ tail < ascii "meta:" ++ suffix := by
  simp only [logPrefix, show ascii "log:" = [108, 111, 103, 58] by decide,
    show ascii "meta:" = [109, 101, 116, 97, 58] by decide, cons_append, cons_lt_cons_iff]
  exact .inl (by decide)

lemma logKey_lt_hardStateKey (i : Nat) : logKey i < hardStateKey :=
  log_lt_meta _ "hard_state"

lemma logKey_lt_snapshotKey (i : Nat) : logKey i < snapshotKey :=
  log_lt_meta _ "snapshot"

lemma hardStateKey_lt_snapshotKey : hardStateKey < snapshotKey := by decide

lemma isLogKey_hardStateKey : isLogKey hardStateKey = false := by decide

lemma isLogKey_snapshotKey : isLogKey snapshotKey = false := by decide

end Cnetmod.Raft
