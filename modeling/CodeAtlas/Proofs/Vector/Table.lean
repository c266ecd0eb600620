import CodeAtlas.Vector.Table.Basic
import Mathlib.Data.List.Induction
import Mathlib.Data.List.Nodup

/-!
# `CodeAtlas.Proofs.Vector.Table`: the table is the last store that was written

`VectorTable.replace` writes a store row by row and keeps the old rows if one of the new ones
cannot be written. The theorems:

* `components_flatMap_bytes`: the bytes of a vector give back its components, whatever their
  bits are.
* `foldlM_insertRecord_eq_ok_iff`: the loop over the records succeeds exactly if no number of
  a chunk is too large and no key occurs twice, among the rows that were there and the new
  ones. It then has added one row for each record, in order.
* `replace_of_storable`, `replace_of_not_storable`: what one call does, in terms of the store
  alone. The rows that the table had before play no part.
* `run_eq_lastStorable`: after a run of calls the table holds the rows of the last store that
  could be written, or its first rows if there was none.
* `replace_run`: all of this for a call behind any run.
-/

set_option autoImplicit false

namespace CodeAtlas

/-- The largest number of a chunk that a row can hold. -/
def maxChunkIndex : Nat := 0x7fffffffffffffff

/-- Whether a store can be written: no two of its records are of the same chunk, and the
numbers of the chunks have at most 63 bits. -/
structure VectorStore.Storable (s : VectorStore) : Prop where
  distinct : (s.records.map EmbeddingRecord.key).Nodup
  bounded : ∀ r ∈ s.records, r.chunkIndex ≤ maxChunkIndex

instance (s : VectorStore) : Decidable s.Storable :=
  decidable_of_iff
    ((s.records.map EmbeddingRecord.key).Nodup ∧ ∀ r ∈ s.records, r.chunkIndex ≤ maxChunkIndex)
    ⟨fun ⟨h₁, h₂⟩ => ⟨h₁, h₂⟩, fun h => ⟨h.1, h.2⟩⟩

/-- A store cannot be written exactly if two of its records are of the same chunk or the
number of a chunk is too large. -/
theorem VectorStore.not_storable_iff (s : VectorStore) :
    ¬s.Storable ↔ ¬(s.records.map EmbeddingRecord.key).Nodup ∨
      ∃ r ∈ s.records, maxChunkIndex < r.chunkIndex := by
  constructor
  · intro h
    by_cases hdistinct : (s.records.map EmbeddingRecord.key).Nodup
    · right
      by_contra hnone
      exact h ⟨hdistinct, fun r hr => Nat.le_of_not_lt fun hlt => hnone ⟨r, hr, hlt⟩⟩
    · exact .inl hdistinct
  · rintro (h | ⟨r, hr, hlarge⟩) hs
    · exact h hs.distinct
    · exact absurd (hs.bounded r hr) (Nat.not_le.mpr hlarge)

/-- Where the writing of a store stops: the records before one can be written, and this one
cannot, for a given reason. -/
def VectorStore.StopsWith (s : VectorStore) (fault : RowFault) : Prop :=
  ∃ done r rest, s.records = done ++ r :: rest ∧ (VectorStore.mk done).Storable ∧
    match fault with
    | .indexTooLarge => maxChunkIndex < r.chunkIndex
    | .duplicateKey => r.chunkIndex ≤ maxChunkIndex ∧ r.key ∈ done.map EmbeddingRecord.key

/-- A store to be written and the model that made its vectors. -/
structure Replacement where
  store : VectorStore
  model : String

/-! ### Bytes of vectors -/

/-- The four bytes of a number give the number back. -/
theorem Single.ofBytes_bytes (x : Single) :
    Single.ofBytes (UInt8.ofNat x.bits.toNat) (UInt8.ofNat (x.bits.toNat / 0x100))
      (UInt8.ofNat (x.bits.toNat / 0x10000)) (UInt8.ofNat (x.bits.toNat / 0x1000000)) = x := by
  have hlt : x.bits.toNat < 0x100000000 := x.bits.toNat_lt
  -- The bytes are the digits of the bits to base 256, the lowest first.
  rw [Single.ofBytes]
  simp only [UInt8.toNat_ofNat']
  have hsum : x.bits.toNat % 2 ^ 8 + 0x100 * (x.bits.toNat / 0x100 % 2 ^ 8) +
      0x10000 * (x.bits.toNat / 0x10000 % 2 ^ 8) +
        0x1000000 * (x.bits.toNat / 0x1000000 % 2 ^ 8) = x.bits.toNat := by
    omega
  rw [hsum, UInt32.ofNat_toNat]

namespace VectorRow

/-- A number's bytes at the front are read as that number. -/
theorem components_bytes_append (x : Single) (rest : List UInt8) :
    components (x.bytes ++ rest) = x :: components rest := by
  have h := Single.ofBytes_bytes x
  simp only [Single.bytes, List.map_cons, List.map_nil, List.cons_append, List.nil_append]
  rw [components, h]

/-- The bytes of a vector are read as its components. -/
theorem components_flatMap_bytes (v : List Single) : components (v.flatMap Single.bytes) = v := by
  induction v with
  | nil => rfl
  | cons x v ih => rw [List.flatMap_cons, components_bytes_append, ih]

/-! ### Rows of records -/

/-- What a row is found by. -/
def key (r : VectorRow) : FileId × Int :=
  (r.fileId, r.chunkIndex)

/-- The row that a record is written as. -/
def written (model : String) (r : EmbeddingRecord) : VectorRow :=
  ⟨r.fileId, r.chunkIndex, r.text, r.language, r.vector.flatMap Single.bytes, model⟩

/-- The key the table compares by is the three columns together. -/
theorem sameKey_iff {r s : VectorRow} : r.sameKey s = true ↔ r.key = s.key := by
  simp [sameKey, key]

/-- A record has a row exactly if the number of its chunk is not too large. -/
theorem ofRecord_eq (model : String) (r : EmbeddingRecord) :
    ofRecord model r =
      if r.chunkIndex ≤ maxChunkIndex then .ok (written model r) else .error .indexTooLarge := by
  rw [ofRecord]
  have hiff : r.chunkIndex < 0x8000000000000000 ↔ r.chunkIndex ≤ maxChunkIndex :=
    Nat.lt_succ_iff
  simp only [hiff, written]

/-- The record of its row is the record itself. -/
theorem record_written (model : String) (r : EmbeddingRecord) : (written model r).record = r := by
  rw [record, written]
  simp only [components_flatMap_bytes, Int.toNat_natCast]

/-- Rows have the same key exactly if their records have. -/
theorem key_written_inj {model : String} {r s : EmbeddingRecord} :
    (written model r).key = (written model s).key ↔ r.key = s.key := by
  simp only [written, key, EmbeddingRecord.key, Prod.mk.injEq]
  exact and_congr_right fun _ => Int.natCast_inj

/-- Under one model the rows' keys repeat exactly where the records' do. -/
theorem nodup_map_key_written (model : String) (records : List EmbeddingRecord) :
    (records.map fun r => (written model r).key).Nodup ↔
      (records.map EmbeddingRecord.key).Nodup := by
  simp only [List.Nodup, List.pairwise_map, ne_eq, key_written_inj]

end VectorRow

namespace VectorTable

/-! ### One call -/

/-- The table of a store. -/
def ofStore (store : VectorStore) (model : String) : VectorTable :=
  ⟨store.records.map (VectorRow.written model)⟩

/-- A record is added as its row unless the number of its chunk is too large or there is a row
of the same chunk. -/
theorem insertRecord_eq (model : String) (t : VectorTable) (r : EmbeddingRecord) :
    insertRecord model t r =
      if maxChunkIndex < r.chunkIndex then .error .indexTooLarge
      else if (VectorRow.written model r).key ∈ t.rows.map VectorRow.key then .error .duplicateKey
      else .ok ⟨t.rows ++ [VectorRow.written model r]⟩ := by
  -- The code compares row by row, the statement speaks of the keys of all rows.
  have hany : t.rows.any (VectorRow.written model r).sameKey = true ↔
      (VectorRow.written model r).key ∈ t.rows.map VectorRow.key := by
    rw [List.any_eq_true, List.mem_map]
    exact exists_congr fun s => and_congr_right fun _ => VectorRow.sameKey_iff.trans eq_comm
  rw [insertRecord, VectorRow.ofRecord_eq]
  by_cases hlarge : maxChunkIndex < r.chunkIndex
  · rw [if_pos hlarge, if_neg (Nat.not_le.mpr hlarge)]
    rfl
  · rw [if_neg hlarge, if_pos (Nat.le_of_not_lt hlarge)]
    show t.insert (VectorRow.written model r) = _
    rw [VectorTable.insert]
    simp only [hany]

/-- A record is inserted when its index fits the column and its key is new; the row then comes
last. -/
theorem insertRecord_eq_ok_iff {model : String} {t t' : VectorTable} {r : EmbeddingRecord} :
    insertRecord model t r = .ok t' ↔
      r.chunkIndex ≤ maxChunkIndex ∧ (VectorRow.written model r).key ∉ t.rows.map VectorRow.key ∧
        t' = ⟨t.rows ++ [VectorRow.written model r]⟩ := by
  rw [insertRecord_eq]
  split
  · rename_i hlarge
    simp [Nat.not_le.mpr hlarge]
  · rename_i hle
    split
    · rename_i hdup
      simp [hdup]
    · rename_i hnew
      rw [Except.ok.injEq, eq_comm]
      exact ⟨fun h => ⟨Nat.le_of_not_lt hle, hnew, h⟩, fun h => h.2.2⟩

/-- The records of a list are added one after the other exactly if the numbers of their chunks are
not too large and no key occurs twice, the rows of the table included. The rows are inserted one by
one, and what a record is tested against grows with them. -/
theorem foldlM_insertRecord_eq_ok_iff {model : String} {records : List EmbeddingRecord}
    {t t' : VectorTable} (ht : (t.rows.map VectorRow.key).Nodup) :
    records.foldlM (insertRecord model) t = .ok t' ↔
      (∀ r ∈ records, r.chunkIndex ≤ maxChunkIndex) ∧
        (t.rows.map VectorRow.key ++ records.map fun r => (VectorRow.written model r).key).Nodup ∧
          t' = ⟨t.rows ++ records.map (VectorRow.written model)⟩ := by
  induction records generalizing t with
  | nil =>
    rw [List.foldlM_nil, List.map_nil, List.map_nil, List.append_nil, List.append_nil]
    exact ⟨fun h => ⟨by simp, ht, (Except.ok.inj h).symm⟩, fun h => congrArg _ h.2.2.symm⟩
  | cons r records ih =>
    rw [List.foldlM_cons]
    cases hstep : insertRecord model t r with
    | error fault =>
      -- The first record is in the way, and it stays so whatever comes behind it.
      have hno : ¬(r.chunkIndex ≤ maxChunkIndex ∧
          (VectorRow.written model r).key ∉ t.rows.map VectorRow.key) := by
        rintro ⟨hle, hkey⟩
        have hok := insertRecord_eq_ok_iff.mpr ⟨hle, hkey, rfl⟩
        rw [hstep] at hok
        exact absurd hok (by simp)
      constructor
      · intro h
        exact absurd h (by simp [bind, Except.bind])
      · rintro ⟨hle, hnodup, -⟩
        refine absurd ⟨hle r List.mem_cons_self, fun hmem => ?_⟩ hno
        rw [List.map_cons] at hnodup
        exact (List.nodup_append.mp hnodup).2.2 _ hmem _ List.mem_cons_self rfl
    | ok next =>
      obtain ⟨hle, hkey, rfl⟩ := insertRecord_eq_ok_iff.mp hstep
      -- The new row has a key of its own, so the longer table has no repeats either.
      have hnext : ((t.rows ++ [VectorRow.written model r]).map VectorRow.key).Nodup := by
        rw [List.map_append, List.nodup_append]
        refine ⟨ht, by simp, ?_⟩
        intro a ha b hb
        rw [List.map_singleton, List.mem_singleton] at hb
        rw [hb]
        exact fun heq => hkey (heq ▸ ha)
      refine (ih hnext).trans ?_
      simp [hle]

/-- From the empty table the records of a list are added exactly if their store can be
written. -/
theorem foldlM_insertRecord_empty_eq_ok_iff {model : String} {records : List EmbeddingRecord}
    {t : VectorTable} :
    records.foldlM (insertRecord model) empty = .ok t ↔
      (VectorStore.mk records).Storable ∧ t = ofStore ⟨records⟩ model := by
  rw [foldlM_insertRecord_eq_ok_iff (by simp [empty])]
  simp only [empty, List.map_nil, List.nil_append, VectorRow.nodup_map_key_written, ofStore]
  exact ⟨fun h => ⟨⟨h.2.1, h.1⟩, h.2.2⟩, fun h => ⟨h.1.bounded, h.1.distinct, h.2⟩⟩

/-- A loop that fails has come to one record at which it fails. -/
theorem exists_of_foldlM_eq_error {α β ε : Type} {f : β → α → Except ε β} {xs : List α} {b : β}
    {e : ε} (h : xs.foldlM f b = .error e) :
    ∃ done x rest b', xs = done ++ x :: rest ∧ done.foldlM f b = .ok b' ∧ f b' x = .error e := by
  -- The state is carried along, so the induction is for every start.
  induction xs generalizing b with
  | nil => exact absurd h (by simp [pure, Except.pure])
  | cons x xs ih =>
    rw [List.foldlM_cons] at h
    cases hstep : f b x with
    | error e' =>
      rw [hstep] at h
      obtain rfl : e' = e := Except.error.inj h
      exact ⟨[], x, xs, b, rfl, rfl, hstep⟩
    | ok next =>
      rw [hstep] at h
      obtain ⟨done, y, rest, b', rfl, hdone, hy⟩ := ih h
      refine ⟨x :: done, y, rest, b', rfl, ?_, hy⟩
      rw [List.foldlM_cons, hstep]
      exact hdone

/-- A call that fails stops at the first record that cannot be written. -/
theorem stopsWith_of_foldlM_eq_error {model : String} {store : VectorStore} {fault : RowFault}
    (h : store.records.foldlM (insertRecord model) empty = .error fault) :
    store.StopsWith fault := by
  obtain ⟨done, r, rest, t, hsplit, hdone, hr⟩ := exists_of_foldlM_eq_error h
  -- The records before it were all written, so the table then has their keys.
  obtain ⟨hstorable, rfl⟩ := foldlM_insertRecord_empty_eq_ok_iff.mp hdone
  refine ⟨done, r, rest, hsplit, hstorable, ?_⟩
  rw [insertRecord_eq] at hr
  split at hr
  · rename_i hlarge
    obtain rfl := Except.error.inj hr
    exact hlarge
  · rename_i hle
    split at hr
    · rename_i hdup
      obtain rfl := Except.error.inj hr
      refine ⟨Nat.le_of_not_lt hle, ?_⟩
      rw [ofStore, List.map_map, List.mem_map] at hdup
      obtain ⟨s, hs, hkey⟩ := hdup
      exact List.mem_map.mpr ⟨s, hs, VectorRow.key_written_inj.mp hkey⟩
    · exact absurd hr (by simp)

/-- What a call does with a store that can be written: its rows take the place of all others. -/
theorem replace_of_storable {store : VectorStore} (h : store.Storable) (t : VectorTable)
    (model : String) : t.replace store model = (.ok store.size, ofStore store model) := by
  have hfold : store.records.foldlM (insertRecord model) empty = .ok (ofStore store model) :=
    foldlM_insertRecord_empty_eq_ok_iff.mpr ⟨h, rfl⟩
  rw [replace, hfold]

/-- What a call does with a store that cannot be written: it stops at the first record that
is in the way, and every row stays. -/
theorem replace_of_not_storable {store : VectorStore} (h : ¬store.Storable) (t : VectorTable)
    (model : String) :
    ∃ fault, t.replace store model = (.error fault, t) ∧ store.StopsWith fault := by
  rw [replace]
  cases hfold : store.records.foldlM (insertRecord model) empty with
  | error fault => exact ⟨fault, rfl, stopsWith_of_foldlM_eq_error hfold⟩
  | ok t' => exact absurd (foldlM_insertRecord_empty_eq_ok_iff.mp hfold).1 h

/-- The store of the table of a store is the store itself. -/
theorem store_ofStore (store : VectorStore) (model : String) :
    (ofStore store model).store = store := by
  have hid : VectorRow.record ∘ VectorRow.written model = id :=
    funext fun r => VectorRow.record_written model r
  rw [ofStore, VectorTable.store, List.map_map, hid, List.map_id]

/-! ### Runs of calls -/

/-- The table behind a run of calls, each of which may succeed or fail. -/
def run (t : VectorTable) (calls : List Replacement) : VectorTable :=
  calls.foldl (fun t c => (t.replace c.store c.model).2) t

/-- The last call of a run whose store can be written. -/
def lastStorable? (calls : List Replacement) : Option Replacement :=
  (calls.filter fun c => c.store.Storable).getLast?

/-- After a run the table holds the rows of the last store that could be written, or its first rows
if there was none. Calls that fail leave no trace, so only the last one that did not is to be
known. -/
theorem run_eq_lastStorable (t : VectorTable) (calls : List Replacement) :
    t.run calls = match lastStorable? calls with
      | some c => ofStore c.store c.model
      | none => t := by
  -- From the end of the run, because its last call alone decides if it can be written.
  induction calls using List.reverseRecOn with
  | nil => rfl
  | append_singleton calls c ih =>
    have hrun : t.run (calls ++ [c]) = ((t.run calls).replace c.store c.model).2 := by
      rw [run, List.foldl_append]
      rfl
    rw [hrun, lastStorable?, List.filter_append]
    by_cases hc : c.store.Storable
    · rw [replace_of_storable hc]
      simp [hc]
    · obtain ⟨fault, hfault, -⟩ := replace_of_not_storable hc (t.run calls) c.model
      rw [hfault]
      simpa [hc, lastStorable?] using ih

/-- **The table is exactly the last store that was written.** Take any table and any run of
calls on it, and one more call. The call fails exactly if two of its records are of the same
chunk or the number of a chunk is too large. Wherever it stops, the table then is as it was
before. If it succeeds the table has the rows of the store and no others, and the store that is
read from it is the same, bit by bit. What was there before the call is told by the last call
of the run that succeeded. -/
theorem replace_run (t : VectorTable) (calls : List Replacement) (store : VectorStore)
    (model : String) :
    ((∃ fault, ((t.run calls).replace store model).1 = .error fault) ↔
      ¬(store.records.map EmbeddingRecord.key).Nodup ∨
        ∃ r ∈ store.records, maxChunkIndex < r.chunkIndex) ∧
    (∀ fault, ((t.run calls).replace store model).1 = .error fault →
      ((t.run calls).replace store model).2 = t.run calls ∧ store.StopsWith fault) ∧
    (∀ size, ((t.run calls).replace store model).1 = .ok size →
      size = store.size ∧
      ((t.run calls).replace store model).2.store = store ∧
      ((t.run calls).replace store model).2 = ofStore store model) ∧
    t.run calls = match lastStorable? calls with
      | some c => ofStore c.store c.model
      | none => t := by
  rw [← store.not_storable_iff]
  -- The first three parts are about the last call alone, for any table before it.
  by_cases hs : store.Storable
  · rw [replace_of_storable hs]
    refine ⟨by simp [hs], by simp, ?_, run_eq_lastStorable t calls⟩
    intro size hsize
    simp only [Except.ok.injEq] at hsize
    exact ⟨hsize.symm, store_ofStore store model, rfl⟩
  · obtain ⟨fault, hfault, hstops⟩ := replace_of_not_storable hs (t.run calls) model
    rw [hfault]
    refine ⟨by simp [hs], ?_, by simp, run_eq_lastStorable t calls⟩
    intro fault' heq
    obtain rfl := Except.error.inj heq
    exact ⟨rfl, hstops⟩

/-- A number that is none, with a payload, and a zero with a sign are read as they were
written; then the third record of another store is in the way, and they are still there. -/
theorem replace_run_nan_then_duplicate :
    (∃ fault, ((empty.run
        [⟨⟨[⟨"a.rs", 0, "a", [⟨0x7fa00001⟩, .negativeZero], "rust"⟩]⟩, "m"⟩]).replace
      ⟨[⟨"b.rs", 0, "b", [], "rust"⟩, ⟨"b.rs", 1, "c", [.one], "rust"⟩,
        ⟨"b.rs", 0, "d", [], "rust"⟩]⟩ "n").1 = .error fault) ∧
    ((empty.run []).replace
      ⟨[⟨"a.rs", 0, "a", [⟨0x7fa00001⟩, .negativeZero], "rust"⟩]⟩ "m").2.store =
        ⟨[⟨"a.rs", 0, "a", [⟨0x7fa00001⟩, .negativeZero], "rust"⟩]⟩ := by
  have hfirst := replace_run empty []
    ⟨[⟨"a.rs", 0, "a", [⟨0x7fa00001⟩, .negativeZero], "rust"⟩]⟩ "m"
  have hsecond := replace_run empty
    [⟨⟨[⟨"a.rs", 0, "a", [⟨0x7fa00001⟩, .negativeZero], "rust"⟩]⟩, "m"⟩]
    ⟨[⟨"b.rs", 0, "b", [], "rust"⟩, ⟨"b.rs", 1, "c", [.one], "rust"⟩,
      ⟨"b.rs", 0, "d", [], "rust"⟩]⟩ "n"
  refine ⟨hsecond.1.mpr (.inl (by decide)), ?_⟩
  exact (hfirst.2.2.1 1 (by decide)).2.1

end VectorTable

end CodeAtlas
