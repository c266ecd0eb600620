import CodeAtlas.Proofs.Project.Data
import CodeAtlas.Proofs.Vector.Table

/-!
# `CodeAtlas.Proofs.Project.Table`: the table of a project

The theorems:

* `content_of_openTable`, `openTable_of_content`: opening the table makes it if it is not there, and
  changes nothing if it is.
* `replaceVectors_eq_ok_iff`, `exists_replaceVectors`: the vectors of a project are replaced exactly
  if the store can be written and the table can be opened.
* `ne_duplicateKey_of_replaceVectors`: no table refuses a store whose keys are distinct for its
  keys.
* `content_replaceVectors_of_ne`: documents beside the table stay as they are.
-/

set_option autoImplicit false

namespace CodeAtlas.FileTree

variable {root p : Path} {t t' : FileTree} {table : VectorTable} {store : VectorStore}
  {model : String} {fault : DataFault}

/-! ### The file of the table -/

/-- A table is found exactly where a file holds one. -/
theorem tableAt_eq_some_iff :
    t.tableAt p = .ok (some table) ↔ t.content p = .ok (.table table) := by
  rw [content_eq_ok_iff, tableAt]
  constructor
  · intro h
    -- The four cases of the definition. Only in the second one there is a table.
    split at h
    · exact absurd (Except.ok.inj h) (by simp)
    · rename_i place rows hlocate
      obtain rfl := Option.some.inj (Except.ok.inj h)
      exact ⟨place, hlocate⟩
    · split at h
      · exact absurd (Except.ok.inj h) (by simp)
      · cases h
    · cases h
  · rintro ⟨place, hlocate⟩
    rw [hlocate]

/-- A file that is taken for an empty table is empty. -/
theorem isEmpty_of_tableAt {data : ByteArray} (h : t.tableAt p = .ok none)
    (hdata : t.content p = .ok (.bytes data)) : data.isEmpty = true := by
  obtain ⟨place, hlocate⟩ := content_eq_ok_iff.mp hdata
  rw [tableAt, hlocate] at h
  by_contra hne
  exact absurd ((if_neg hne).symm.trans h) (fun h => nomatch h)

/-- What is in the way of a table is not a fault of its rows. -/
theorem ne_row_of_tableAt (h : t.tableAt p = .error fault) (r : RowFault) : fault ≠ .row r := by
  rintro rfl
  rw [tableAt] at h
  split at h
  · cases h
  · cases h
  · split at h <;> exact absurd h (by simp)
  · exact absurd h (by simp)

/-! ### Opening -/

/-- Opening creates the directory first. A table that stands there is left as it is, and where there
is none an empty one is written. -/
theorem openTable_eq_ok_iff :
    (openTable root).apply t = (.ok table, t') ↔
      ∃ between, t.makeDirectories (Layout.dataDirectory root) = .ok between ∧
        ((between.tableAt (Layout.tableFile root) = .ok (some table) ∧ t' = between) ∨
          between.tableAt (Layout.tableFile root) = .ok none ∧ table = .empty ∧
            between.write (Layout.tableFile root) (.table .empty) = .ok t') := by
  rw [openTable, TreeChange.apply_bind_eq_ok_iff]
  refine ⟨?_, ?_⟩
  · rintro ⟨_, between, hmake, h⟩
    refine ⟨between, TreeChange.apply_update_eq_ok_iff.mp hmake, ?_⟩
    obtain ⟨_, _, hget, h⟩ := TreeChange.apply_bind_eq_ok_iff.mp h
    -- Reading the state changes nothing: from here on it is the tree with the directory.
    cases hget
    cases htable : between.tableAt (Layout.tableFile root) with
    | error f =>
      rw [htable] at h
      cases h
    | ok table? =>
      rw [htable] at h
      cases table? with
      | some rows =>
        cases h
        exact .inl ⟨rfl, rfl⟩
      | none =>
        obtain ⟨_, _, hwrite, h⟩ := TreeChange.apply_bind_eq_ok_iff.mp h
        cases h
        exact .inr ⟨rfl, rfl, TreeChange.apply_update_eq_ok_iff.mp hwrite⟩
  · rintro ⟨between, hmake, h⟩
    refine ⟨(), between, TreeChange.apply_update_eq_ok_iff.mpr hmake, ?_⟩
    refine TreeChange.apply_bind_eq_ok_iff.mpr ⟨between, between, rfl, ?_⟩
    obtain ⟨htable, rfl⟩ | ⟨htable, rfl, hwrite⟩ := h
    · rw [htable]
      rfl
    · rw [htable]
      exact TreeChange.apply_bind_eq_ok_iff.mpr
        ⟨(), t', TreeChange.apply_update_eq_ok_iff.mpr hwrite, rfl⟩

/-- A table that was opened is there. -/
theorem content_of_openTable (h : (openTable root).apply t = (.ok table, t')) :
    t'.content (Layout.tableFile root) = .ok (.table table) := by
  obtain ⟨between, -, ⟨htable, rfl⟩ | ⟨-, rfl, hwrite⟩⟩ := openTable_eq_ok_iff.mp h
  · exact tableAt_eq_some_iff.mp htable
  · exact content_write hwrite

/-- A table that is there is opened, and nothing is changed for it. -/
theorem openTable_of_content (h : t.content (Layout.tableFile root) = .ok (.table table)) :
    (openTable root).apply t = (.ok table, t) := by
  obtain ⟨place, hlocate⟩ := content_eq_ok_iff.mp h
  have hmake := makeDirectories_of_locate (Layout.components_tableFile root) hlocate
  exact openTable_eq_ok_iff.mpr ⟨t, hmake, .inl ⟨tableAt_eq_some_iff.mpr h, rfl⟩⟩

/-- What is in the way of opening a table is not a fault of its rows. -/
theorem ne_row_of_openTable (h : (openTable root).apply t = (.error fault, t')) (r : RowFault) :
    fault ≠ .row r := by
  rw [openTable, TreeChange.apply_bind_eq_error_iff] at h
  -- Opening is a sequence of steps, and the fault is that of the first one that fails. None of them
  -- has to do with rows.
  obtain h | ⟨_, between, -, h⟩ := h
  · obtain ⟨_, -, rfl, -⟩ := TreeChange.apply_update_eq_error_iff.mp h
    exact fun h => nomatch h
  obtain h | ⟨_, _, hget, h⟩ := TreeChange.apply_bind_eq_error_iff.mp h
  · cases h
  cases hget
  cases htable : between.tableAt (Layout.tableFile root) with
  | error f =>
    rw [htable] at h
    cases h
    exact ne_row_of_tableAt htable r
  | ok table? =>
    rw [htable] at h
    cases table? with
    | some rows => cases h
    | none =>
      obtain h | ⟨_, _, -, h⟩ := TreeChange.apply_bind_eq_error_iff.mp h
      · obtain ⟨_, -, rfl, -⟩ := TreeChange.apply_update_eq_error_iff.mp h
        exact fun h => nomatch h
      · cases h

/-! ### Replacing the vectors -/

/-- The vectors of a project are replaced if the store can be written and the table opened. -/
theorem replaceVectors_eq_ok_iff {n : Nat} :
    (replaceVectors root store model).apply t = (.ok n, t') ↔
      store.Storable ∧ n = store.size ∧ ∃ table between,
        (openTable root).apply t = (.ok table, between) ∧
          between.write (Layout.tableFile root) (.table (.ofStore store model)) = .ok t' := by
  rw [replaceVectors, TreeChange.apply_bind_eq_ok_iff]
  constructor
  · rintro ⟨table, between, hopen, h⟩
    -- The rows are made before the table is written: a store that has none fails here.
    by_cases hs : store.Storable
    · rw [VectorTable.replace_of_storable hs] at h
      obtain ⟨_, _, hwrite, h⟩ := TreeChange.apply_bind_eq_ok_iff.mp h
      cases h
      exact ⟨hs, rfl, table, between, hopen, TreeChange.apply_update_eq_ok_iff.mp hwrite⟩
    · obtain ⟨fault, hfault, -⟩ := VectorTable.replace_of_not_storable hs table model
      rw [hfault] at h
      cases h
  · rintro ⟨hs, rfl, table, between, hopen, hwrite⟩
    refine ⟨table, between, hopen, ?_⟩
    rw [VectorTable.replace_of_storable hs]
    exact TreeChange.apply_bind_eq_ok_iff.mpr
      ⟨(), t', TreeChange.apply_update_eq_ok_iff.mpr hwrite, rfl⟩

/-- After a replacement that succeeds the file holds the rows of the new store and no others. -/
theorem content_replaceVectors {n : Nat}
    (h : (replaceVectors root store model).apply t = (.ok n, t')) :
    t'.content (Layout.tableFile root) = .ok (.table (.ofStore store model)) := by
  obtain ⟨-, -, table, between, -, hwrite⟩ := replaceVectors_eq_ok_iff.mp h
  exact content_write hwrite

/-- A table that was opened can be written. -/
theorem exists_replaceVectors {between : FileTree} (hs : store.Storable)
    (hopen : (openTable root).apply t = (.ok table, between)) (model : String) :
    ∃ t', (replaceVectors root store model).apply t = (.ok store.size, t') := by
  obtain ⟨place, hlocate⟩ := content_eq_ok_iff.mp (content_of_openTable hopen)
  have hwrite := write_file hlocate (fun _ h => nomatch h) (.table (.ofStore store model))
  exact ⟨_, replaceVectors_eq_ok_iff.mpr ⟨hs, rfl, table, between, hopen, hwrite⟩⟩

/-- A store whose keys are distinct is not refused for its keys. -/
theorem ne_duplicateKey_of_replaceVectors
    (h : (replaceVectors root store model).apply t = (.error fault, t'))
    (hkeys : (store.records.map EmbeddingRecord.key).Nodup) : fault ≠ .row .duplicateKey := by
  rw [replaceVectors, TreeChange.apply_bind_eq_error_iff] at h
  obtain h | ⟨table, between, -, h⟩ := h
  · exact ne_row_of_openTable h _
  by_cases hs : store.Storable
  · rw [VectorTable.replace_of_storable hs] at h
    obtain h | ⟨_, _, -, h⟩ := TreeChange.apply_bind_eq_error_iff.mp h
    · obtain ⟨_, -, rfl, -⟩ := TreeChange.apply_update_eq_error_iff.mp h
      exact fun h => nomatch h
    · cases h
  · obtain ⟨cause, hcause, done, r, rest, hsplit, -, hstops⟩ :=
      VectorTable.replace_of_not_storable hs table model
    rw [hcause] at h
    cases h
    rintro heq
    obtain rfl := DataFault.row.inj heq
    -- A key that is refused stands twice in the store.
    rw [hsplit, List.map_append, List.map_cons, List.nodup_append] at hkeys
    exact hkeys.2.2 _ hstops.2 _ List.mem_cons_self rfl

/-! ### Documents beside the table -/

section Beside

variable {name : EntryName} {data : ByteArray}
  (hp : p.components = (Layout.dataDirectory root).components ++ [.name name])
  (hdata : data.isEmpty = false)

include hp hdata

/-- Opening the table changes no document that is not empty. -/
theorem content_openTable_of_ne (h : (openTable root).apply t = (.ok table, t'))
    (hold : t.content p = .ok (.bytes data)) : t'.content p = .ok (.bytes data) := by
  obtain ⟨place, hlocate⟩ := content_eq_ok_iff.mp hold
  obtain ⟨between, hmake, hopen⟩ := openTable_eq_ok_iff.mp h
  obtain rfl := Except.ok.inj (hmake.symm.trans (makeDirectories_of_locate hp hlocate))
  obtain ⟨-, rfl⟩ | ⟨htable, -, hwrite⟩ := hopen
  · exact hold
  · -- A file that is taken for an empty table is empty, and the document is not.
    refine content_write_of_ne (fun hsame => ?_) hwrite hold
    rw [isEmpty_of_tableAt htable hsame] at hdata
    exact absurd hdata (by decide)

/-- Replacing the vectors changes no document that is not empty. -/
theorem content_replaceVectors_of_ne {n : Nat}
    (h : (replaceVectors root store model).apply t = (.ok n, t'))
    (hold : t.content p = .ok (.bytes data)) : t'.content p = .ok (.bytes data) := by
  obtain ⟨-, -, table, between, hopen, hwrite⟩ := replaceVectors_eq_ok_iff.mp h
  refine content_write_of_ne ?_ hwrite (content_openTable_of_ne hp hdata hopen hold)
  rw [content_of_openTable hopen]
  simp

end Beside

end CodeAtlas.FileTree
