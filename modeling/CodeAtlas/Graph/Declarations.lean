import CodeAtlas.Analysis.Basic

/-!
# `CodeAtlas.Graph.Declarations`: where names are declared

The symbols of all files are put into an index by their names, in one pass over the files. A name
may be declared any number of times, in several files and in one of them. What is found for a name
are all of its declarations, file by file and in the order of each file's symbols
(`find_ofFiles`).
-/

set_option autoImplicit false

namespace CodeAtlas

/-- The place of a declaration. -/
structure Declaration where
  file : FileId
  line : Nat
deriving DecidableEq, Repr

/-- Declarations by the names that they declare. Each name has one entry. -/
structure DeclarationIndex where
  entries : List (String × List Declaration)
deriving DecidableEq, Repr

namespace DeclarationIndex

/-- The index without declarations. -/
def empty : DeclarationIndex := ⟨[]⟩

/-- The declarations of a name; none if the name has no entry. -/
def find (index : DeclarationIndex) (name : String) : List Declaration :=
  ((index.entries.find? fun entry => entry.1 = name).map Prod.snd).getD []

/-- The entries with one more declaration, behind the others of its name. -/
def addTo (name : String) (d : Declaration) :
    List (String × List Declaration) → List (String × List Declaration)
  | [] => [(name, [d])]
  | (n, ds) :: rest => if n = name then (n, ds ++ [d]) :: rest else (n, ds) :: addTo name d rest

/-- The index with one more declaration of a name. -/
def add (index : DeclarationIndex) (name : String) (d : Declaration) : DeclarationIndex :=
  ⟨addTo name d index.entries⟩

/-- The index with the symbols of one more file. -/
def addFile (index : DeclarationIndex) (file : FileAnalysis) : DeclarationIndex :=
  file.symbols.foldl (fun index s => index.add s.name ⟨file.id, s.line⟩) index

/-- The index of the symbols of all files. -/
def ofFiles (files : List FileAnalysis) : DeclarationIndex :=
  files.foldl addFile empty

/-! ### What is found -/

variable (index : DeclarationIndex) (name other : String)

/-- Nothing is declared before the first symbol is added. -/
@[simp] theorem find_empty : empty.find name = [] := rfl

/-- A declaration is found behind the others of its name, and under no other name. -/
@[simp] theorem find_add (d : Declaration) :
    (index.add name d).find other
      = if name = other then index.find other ++ [d] else index.find other := by
  obtain ⟨entries⟩ := index
  simp only [find, add]
  induction entries with
  | nil =>
    by_cases h : name = other
    · simp [addTo, h]
    · simp [addTo, h]
  | cons entry rest ih =>
    obtain ⟨n, ds⟩ := entry
    by_cases hn : n = name
    · subst hn
      by_cases h : n = other
      · simp [addTo, h]
      · simp [addTo, h]
    · by_cases h : n = other
      · -- The entry that is asked for stands here, and the declaration goes to a later one.
        subst h
        simp [addTo, hn, Ne.symm hn]
      · simpa [addTo, hn, h] using ih

/-- The symbols of a file are found behind what was there before. -/
theorem find_addFile (file : FileAnalysis) :
    (index.addFile file).find name
      = index.find name ++ (file.symbols.filter fun s => s.name = name).map fun s =>
          ⟨file.id, s.line⟩ := by
  unfold addFile
  -- The index is general, as the symbols are added to it one after the other.
  induction file.symbols generalizing index with
  | nil => simp
  | cons s rest ih =>
    rw [List.foldl_cons, ih, find_add]
    by_cases h : s.name = name
    · simp [h]
    · simp [h]

/-- What is found are the declarations of the name in all files, in their order. -/
theorem find_ofFiles (files : List FileAnalysis) :
    (ofFiles files).find name = files.flatMap fun file =>
      (file.symbols.filter fun s => s.name = name).map fun s => ⟨file.id, s.line⟩ := by
  have hfold : ∀ index : DeclarationIndex, (files.foldl addFile index).find name
      = index.find name ++ files.flatMap fun file =>
          (file.symbols.filter fun s => s.name = name).map fun s => ⟨file.id, s.line⟩ := by
    induction files with
    | nil => simp
    | cons file rest ih =>
      intro index
      rw [List.foldl_cons, ih, find_addFile, List.flatMap_cons, List.append_assoc]
  simpa [ofFiles] using hfold empty

end DeclarationIndex

end CodeAtlas
