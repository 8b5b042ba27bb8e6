import RustAnalyzer.Db.Input

/-!
# Change application

{lit}`RootDatabase::apply_change` and {lit}`apply_root_change` from
{lit}`ra_ide_api/src/imp.rs`, each loop a left fold, each block of
{lit}`apply_change` a definition of its own.  Every block then gets one closed
form, stated with {lit}`writeAll` (a list of writes applied in order), which is
what every later proof cites instead of unfolding the loops.

Main results:

- Theorem {lit}`applyRootChange_eq`: a root change writes the texts of its added
  files and then empties the texts of its removed files, records path and root
  of each added file, and replaces the root's listing by all insertions followed
  by all removals.
- Theorems {lit}`applyNewRoots_eq` and {lit}`applyLibrariesAdded_eq`: the
  emptiness guards of {lit}`apply_change` are immaterial; the root lists grow by
  the new local roots and the new libraries.
- Theorem {lit}`writeAll_comm`: two write lists commute when they agree on every
  key they share ({lit}`WritesAgree`).
-/

namespace RustAnalyzer

/-! ## Lists of writes -/

/-- Apply the writes {lean}`ws` to {lean}`g` in order; the last write to a key wins. -/
def writeAll {α β : Type} [DecidableEq α] (ws : List (α × β)) (g : α → β) : α → β :=
  ws.foldl (fun g w => Function.update g w.1 w.2) g

section WritesAgree

variable {α β : Type}

/-- Two write lists agree: writes of both to one key carry one value. -/
def WritesAgree (ws ws' : List (α × β)) : Prop :=
  ∀ w ∈ ws, ∀ w' ∈ ws', w.1 = w'.1 → w.2 = w'.2

/-- Agreement of write lists is symmetric. -/
theorem WritesAgree.symm {ws ws' : List (α × β)} (h : WritesAgree ws ws') : WritesAgree ws' ws :=
  fun w hw w' hw' hk => (h w' hw' w hw hk.symm).symm

/-- Write lists with no key in common agree. -/
theorem WritesAgree.of_disjoint {ws ws' : List (α × β)} (h : ∀ w ∈ ws, w.1 ∉ ws'.map Prod.fst) :
    WritesAgree ws ws' :=
  fun w hw _ hw' hk => absurd (hk ▸ List.mem_map_of_mem Prod.fst hw') (h w hw)

/-- Write lists built entry by entry agree when the writes of every pair of entries agree. -/
theorem WritesAgree.flatMap {γ δ : Type} {xs : List γ} {ys : List δ} {f : γ → List (α × β)}
    {g : δ → List (α × β)} (h : ∀ x ∈ xs, ∀ y ∈ ys, WritesAgree (f x) (g y)) :
    WritesAgree (xs.flatMap f) (ys.flatMap g) := by
  intro w hw w' hw'
  obtain ⟨x, hx, hw⟩ := List.mem_flatMap.1 hw
  obtain ⟨y, hy, hw'⟩ := List.mem_flatMap.1 hw'
  exact h x hx y hy w hw w' hw'

end WritesAgree

section WriteAll

variable {α β : Type} [DecidableEq α]

/-- No writes leave the function as it is. -/
@[simp]
theorem writeAll_nil (g : α → β) : writeAll [] g = g :=
  rfl

/-- The first write of a list is applied first. -/
@[simp]
theorem writeAll_cons (w : α × β) (ws : List (α × β)) (g : α → β) :
    writeAll (w :: ws) g = writeAll ws (Function.update g w.1 w.2) :=
  rfl

/-- Two write lists applied in turn are their concatenation. -/
theorem writeAll_append (ws ws' : List (α × β)) (g : α → β) :
    writeAll (ws ++ ws') g = writeAll ws' (writeAll ws g) :=
  List.foldl_append _ _ _ _

/-- A key that no write names keeps its value. -/
theorem writeAll_apply_of_not_mem {ws : List (α × β)} {x : α} (h : x ∉ ws.map Prod.fst)
    (g : α → β) : writeAll ws g x = g x := by
  induction ws generalizing g with
  | nil => rfl
  | cons w ws ih =>
    simp only [List.map_cons, List.mem_cons, not_or] at h
    rw [writeAll_cons, ih h.2, Function.update_noteq h.1]

/-- A write whose key no other write names is the key's final value. -/
theorem writeAll_apply_of_mem {ws : List (α × β)} {w : α × β} (hw : w ∈ ws)
    (hnodup : (ws.map Prod.fst).Nodup) (g : α → β) : writeAll ws g w.1 = w.2 := by
  induction ws generalizing g with
  | nil => simp at hw
  | cons v ws ih =>
    simp only [List.map_cons, List.nodup_cons] at hnodup
    rcases List.mem_cons.1 hw with rfl | hw
    · rw [writeAll_cons, writeAll_apply_of_not_mem hnodup.1, Function.update_same]
    · exact ih hw hnodup.2 _

/-- A key ends with its first value or with the value of some write to it. -/
theorem writeAll_apply_cases (ws : List (α × β)) (g : α → β) (x : α) :
    writeAll ws g x = g x ∨ ∃ w ∈ ws, w.1 = x ∧ writeAll ws g x = w.2 := by
  induction ws generalizing g with
  | nil => exact .inl rfl
  | cons w ws ih =>
    rcases ih (Function.update g w.1 w.2) with h | ⟨v, hv, hx, h⟩
    · by_cases hx : x = w.1
      · subst hx
        exact .inr ⟨w, List.mem_cons_self _ _, rfl, by rw [writeAll_cons, h, Function.update_same]⟩
      · exact .inl (by rw [writeAll_cons, h, Function.update_noteq hx])
    · exact .inr ⟨v, List.mem_cons_of_mem _ hv, hx, h⟩

/-- A write that agrees with every later write to its key commutes past them. -/
theorem writeAll_update {ws : List (α × β)} {a : α} {b : β}
    (h : ∀ w ∈ ws, w.1 = a → w.2 = b) (g : α → β) :
    writeAll ws (Function.update g a b) = Function.update (writeAll ws g) a b := by
  induction ws generalizing g with
  | nil => rfl
  | cons w ws ih =>
    obtain ⟨k, v⟩ := w
    simp only [List.mem_cons, forall_eq_or_imp] at h
    rw [writeAll_cons, writeAll_cons, ← ih h.2]
    by_cases hk : k = a
    · have hv : v = b := h.1 hk
      subst hk hv
      rfl
    · exact congrArg _ (Function.update_comm hk v b g).symm

/-- Two write lists commute when they agree on every key they share. -/
theorem writeAll_comm {ws ws' : List (α × β)} (h : WritesAgree ws ws') (g : α → β) :
    writeAll ws (writeAll ws' g) = writeAll ws' (writeAll ws g) := by
  induction ws' generalizing g with
  | nil => rfl
  | cons w' ws' ih =>
    rw [writeAll_cons, writeAll_cons, ih (fun w hw v hv => h w hw v (List.mem_cons_of_mem _ hv)),
      writeAll_update (fun w hw hk => h w hw w' (List.mem_cons_self _ _) hk)]

/-- Where a list writes a key, its value there does not depend on the start. -/
theorem writeAll_apply_of_mem_keys {ws : List (α × β)} {x : α} (h : x ∈ ws.map Prod.fst)
    (g g' : α → β) : writeAll ws g x = writeAll ws g' x := by
  induction ws generalizing g g' with
  | nil => simp at h
  | cons w ws ih =>
    rw [writeAll_cons, writeAll_cons]
    by_cases hx : x ∈ ws.map Prod.fst
    · exact ih hx _ _
    · have hw : x = w.1 := by simpa [hx] using h
      rw [writeAll_apply_of_not_mem hx, writeAll_apply_of_not_mem hx, hw, Function.update_same,
        Function.update_same]

/-- The value at a key after writes depends only on the value it had. -/
theorem writeAll_apply_congr (ws : List (α × β)) {g g' : α → β} {x : α} (h : g x = g' x) :
    writeAll ws g x = writeAll ws g' x := by
  by_cases hx : x ∈ ws.map Prod.fst
  · exact writeAll_apply_of_mem_keys hx g g'
  · rw [writeAll_apply_of_not_mem hx, writeAll_apply_of_not_mem hx, h]

end WriteAll

/-! ## Single input writes -/

namespace RootDatabase

/-- {lit}`FileTextQuery.set(file_id, text)`. -/
def setFileText (db : RootDatabase) (fileId : FileId) (text : String) : RootDatabase :=
  { db with fileText := Function.update db.fileText fileId text }

/-- {lit}`FileRelativePathQuery.set(file_id, path)`. -/
def setFileRelativePath (db : RootDatabase) (fileId : FileId) (path : RelativePathBuf) :
    RootDatabase :=
  { db with fileRelativePath := Function.update db.fileRelativePath fileId path }

/-- {lit}`FileSourceRootQuery.set(file_id, root_id)`. -/
def setFileSourceRoot (db : RootDatabase) (fileId : FileId) (rootId : SourceRootId) :
    RootDatabase :=
  { db with fileSourceRoot := Function.update db.fileSourceRoot fileId rootId }

/-- {lit}`SourceRootQuery.set(root_id, source_root)`. -/
def setSourceRoot (db : RootDatabase) (rootId : SourceRootId) (sourceRoot : SourceRoot) :
    RootDatabase :=
  { db with sourceRoot := Function.update db.sourceRoot rootId sourceRoot }

/-! ## apply_root_change -/

/-- One iteration of the {lit}`added` loop: set the file's text, path and root,
and insert it into the local copy of the root's listing. -/
def addFileStep (rootId : SourceRootId) (acc : RootDatabase × SourceRoot) (addFile : AddFile) :
    RootDatabase × SourceRoot :=
  (((acc.1.setFileText addFile.fileId addFile.text).setFileRelativePath addFile.fileId
      addFile.path).setFileSourceRoot addFile.fileId rootId,
    acc.2.insert addFile.path addFile.fileId)

/-- One iteration of the {lit}`removed` loop: empty the file's text and remove
its path from the local copy of the listing. -/
def removeFileStep (acc : RootDatabase × SourceRoot) (removeFile : RemoveFile) :
    RootDatabase × SourceRoot :=
  (acc.1.setFileText removeFile.fileId "", acc.2.remove removeFile.path)

/-- {lit}`apply_root_change`: fold the added and then the removed files into a
copy of the root's listing, and store the copy. -/
def applyRootChange (db : RootDatabase) (rootId : SourceRootId) (rootChange : RootChange) :
    RootDatabase :=
  let acc := rootChange.added.foldl (addFileStep rootId) (db, db.sourceRoot rootId)
  let acc := rootChange.removed.foldl removeFileStep acc
  acc.1.setSourceRoot rootId acc.2

end RootDatabase

/-! ## Closed form of a root change -/

namespace RootChange

/-- The listing a root change leaves: every insertion, then every removal. -/
def applyFiles (rc : RootChange) (sr : SourceRoot) : SourceRoot :=
  rc.removed.foldl (fun sr r => sr.remove r.path) (rc.added.foldl (fun sr a => sr.insert a.path a.fileId) sr)

/-- The text writes of a root change: added texts, then empty removed texts. -/
def textWrites (rc : RootChange) : List (FileId × String) :=
  rc.added.map (fun a => (a.fileId, a.text)) ++ rc.removed.map (fun r => (r.fileId, ""))

/-- The path writes of a root change. -/
def pathWrites (rc : RootChange) : List (FileId × RelativePathBuf) :=
  rc.added.map fun a => (a.fileId, a.path)

/-- The source-root writes of a root change applied to {lean}`rootId`. -/
def rootWrites (rc : RootChange) (rootId : SourceRootId) : List (FileId × SourceRootId) :=
  rc.added.map fun a => (a.fileId, rootId)

/-- The files a root change adds. -/
def addedIds (rc : RootChange) : List FileId :=
  rc.added.map AddFile.fileId

/-- A root change writes the relative path of exactly the files it adds. -/
@[simp]
theorem pathWrites_keys (rc : RootChange) : rc.pathWrites.map Prod.fst = rc.addedIds := by
  simp [pathWrites, addedIds]

/-- A root change writes the source root of exactly the files it adds. -/
@[simp]
theorem rootWrites_keys (rc : RootChange) (r : SourceRootId) :
    (rc.rootWrites r).map Prod.fst = rc.addedIds := by
  simp [rootWrites, addedIds]

/-- Removing files lists nothing that was not listed before. -/
theorem foldl_remove_files_eq_some {removed : List RemoveFile} {sr : SourceRoot}
    {p : RelativePathBuf} {f : FileId}
    (h : (removed.foldl (fun sr r => sr.remove r.path) sr).files p = some f) :
    sr.files p = some f := by
  induction removed generalizing sr with
  | nil => exact h
  | cons r removed ih =>
    have h' := ih h
    rw [SourceRoot.remove_files] at h'
    split at h'
    · cases h'
    · exact h'

/-- After inserting files, a listed file was inserted there or listed there before. -/
theorem foldl_insert_files_eq_some {added : List AddFile} {sr : SourceRoot}
    {p : RelativePathBuf} {f : FileId}
    (h : (added.foldl (fun sr a => sr.insert a.path a.fileId) sr).files p = some f) :
    (∃ a ∈ added, a.path = p ∧ a.fileId = f) ∨ sr.files p = some f := by
  induction added generalizing sr with
  | nil => exact .inr h
  | cons a added ih =>
    rcases ih h with ⟨b, hb, hbp⟩ | h'
    · exact .inl ⟨b, List.mem_cons_of_mem _ hb, hbp⟩
    · rw [SourceRoot.insert_files] at h'
      split at h'
      · exact .inl ⟨a, List.mem_cons_self _ _, by simp_all⟩
      · exact .inr h'

/-- An entry a root change leaves was inserted by it or was listed before. -/
theorem applyFiles_files_eq_some {rc : RootChange} {sr : SourceRoot} {p : RelativePathBuf}
    {f : FileId} (h : (rc.applyFiles sr).files p = some f) :
    (∃ a ∈ rc.added, a.path = p ∧ a.fileId = f) ∨ sr.files p = some f :=
  foldl_insert_files_eq_some (foldl_remove_files_eq_some h)

end RootChange

namespace RootDatabase

/-- The {lit}`added` loop in closed form: the text, path and root writes of the
added files, and their insertion into the listing. -/
theorem foldl_addFileStep (rootId : SourceRootId) (added : List AddFile) (db : RootDatabase)
    (sr : SourceRoot) :
    added.foldl (addFileStep rootId) (db, sr) =
      ({ db with
          fileText := writeAll (added.map fun a => (a.fileId, a.text)) db.fileText
          fileRelativePath := writeAll (added.map fun a => (a.fileId, a.path)) db.fileRelativePath
          fileSourceRoot := writeAll (added.map fun a => (a.fileId, rootId)) db.fileSourceRoot },
        added.foldl (fun sr a => sr.insert a.path a.fileId) sr) := by
  induction added generalizing db sr with
  | nil => rfl
  | cons a added ih => exact ih _ _

/-- The {lit}`removed` loop in closed form: the emptied texts of the removed
files, and their removal from the listing. -/
theorem foldl_removeFileStep (removed : List RemoveFile) (db : RootDatabase) (sr : SourceRoot) :
    removed.foldl removeFileStep (db, sr) =
      ({ db with fileText := writeAll (removed.map fun r => (r.fileId, "")) db.fileText },
        removed.foldl (fun sr r => sr.remove r.path) sr) := by
  induction removed generalizing db sr with
  | nil => rfl
  | cons r removed ih => exact ih _ _

/-- The closed form of {lit}`apply_root_change`. -/
theorem applyRootChange_eq (db : RootDatabase) (rootId : SourceRootId) (rc : RootChange) :
    db.applyRootChange rootId rc =
      { db with
          fileText := writeAll rc.textWrites db.fileText
          fileRelativePath := writeAll rc.pathWrites db.fileRelativePath
          fileSourceRoot := writeAll (rc.rootWrites rootId) db.fileSourceRoot
          sourceRoot := Function.update db.sourceRoot rootId (rc.applyFiles (db.sourceRoot rootId)) } := by
  simp only [applyRootChange, foldl_addFileStep, foldl_removeFileStep, setSourceRoot,
    RootChange.textWrites, RootChange.pathWrites, RootChange.rootWrites, RootChange.applyFiles,
    writeAll_append]

/-! ## apply_change -/

/-- One iteration of the {lit}`new_roots` loop: register the root with an empty
listing and collect it if it is local. -/
def newRootStep (acc : RootDatabase × List SourceRootId) (root : SourceRootId × Bool) :
    RootDatabase × List SourceRootId :=
  (acc.1.setSourceRoot root.1 SourceRoot.empty, if root.2 then acc.2 ++ [root.1] else acc.2)

/-- Step (1) of {lit}`apply_change`: register the new roots. -/
def applyNewRoots (db : RootDatabase) (newRoots : List (SourceRootId × Bool)) : RootDatabase :=
  if newRoots.isEmpty then db
  else
    let acc := newRoots.foldl newRootStep (db, db.localRoots)
    { acc.1 with localRoots := acc.2 }

/-- Step (2): apply every root change, in the map's iteration order. -/
def applyRootsChanged (db : RootDatabase) (entries : List (SourceRootId × RootChange)) :
    RootDatabase :=
  entries.foldl (fun db e => db.applyRootChange e.1 e.2) db

/-- Step (3): set the text of every changed file. -/
def applyFilesChanged (db : RootDatabase) (filesChanged : List (FileId × String)) :
    RootDatabase :=
  filesChanged.foldl (fun db e => db.setFileText e.1 e.2) db

/-- One iteration of the {lit}`libraries_added` loop: collect the root, register
it with an empty listing, and apply the library's files. -/
def libraryStep (acc : RootDatabase × List SourceRootId) (library : LibraryData) :
    RootDatabase × List SourceRootId :=
  ((acc.1.setSourceRoot library.rootId SourceRoot.empty).applyRootChange library.rootId
      library.rootChange,
    acc.2 ++ [library.rootId])

/-- Step (4): register the new libraries. -/
def applyLibrariesAdded (db : RootDatabase) (libraries : List LibraryData) : RootDatabase :=
  if libraries.isEmpty then db
  else
    let acc := libraries.foldl libraryStep (db, db.libraryRoots)
    { acc.1 with libraryRoots := acc.2 }

/-- Step (5): replace the crate graph if the batch carries one. -/
def applyCrateGraph (db : RootDatabase) : Option CrateGraph → RootDatabase
  | some crateGraph => { db with crateGraph := crateGraph }
  | none => db

/-- {lit}`apply_change`: the five steps in the source's order. -/
def applyChange (db : RootDatabase) (change : AnalysisChange) : RootDatabase :=
  ((((db.applyNewRoots change.newRoots).applyRootsChanged change.rootsChanged.entries).applyFilesChanged
    change.filesChanged).applyLibrariesAdded change.librariesAdded).applyCrateGraph change.crateGraph

/-! ## Closed forms of the steps -/

/-- The roots a list of new roots resets, as writes of the empty listing. -/
def resetWrites (roots : List SourceRootId) : List (SourceRootId × SourceRoot) :=
  roots.map fun r => (r, SourceRoot.empty)

/-- Resetting roots writes exactly those roots. -/
theorem keys_resetWrites (roots : List SourceRootId) : (resetWrites roots).map Prod.fst = roots := by
  simp [resetWrites, Function.comp_def]

/-- Resetting roots to empty listings lists no file that was not listed. -/
theorem files_resetWrites_eq_some {roots : List SourceRootId} {sr : SourceRootId → SourceRoot}
    {r : SourceRootId} {p : RelativePathBuf} {f : FileId}
    (h : (writeAll (resetWrites roots) sr r).files p = some f) : (sr r).files p = some f := by
  rcases writeAll_apply_cases (resetWrites roots) sr r with he | ⟨w, hw, -, he⟩
  · rwa [he] at h
  · obtain ⟨x, -, rfl⟩ := List.mem_map.1 hw
    rw [he] at h
    cases h

/-- The {lit}`new_roots` loop in closed form: every new root emptied, the local
ones collected in order. -/
theorem foldl_newRootStep (newRoots : List (SourceRootId × Bool)) (db : RootDatabase)
    (locals : List SourceRootId) :
    newRoots.foldl newRootStep (db, locals) =
      ({ db with sourceRoot := writeAll (resetWrites (newRoots.map Prod.fst)) db.sourceRoot },
        locals ++ (newRoots.filter (·.2)).map Prod.fst) := by
  induction newRoots generalizing db locals with
  | nil => simp [resetWrites]
  | cons x newRoots ih =>
    obtain ⟨r, isLocal⟩ := x
    rw [List.foldl_cons, newRootStep, ih]
    cases isLocal <;> simp [resetWrites, setSourceRoot, List.filter_cons]

/-- The closed form of step (1); the emptiness guard is immaterial. -/
theorem applyNewRoots_eq (db : RootDatabase) (newRoots : List (SourceRootId × Bool)) :
    db.applyNewRoots newRoots =
      { db with
          sourceRoot := writeAll (resetWrites (newRoots.map Prod.fst)) db.sourceRoot
          localRoots := db.localRoots ++ (newRoots.filter (·.2)).map Prod.fst } := by
  unfold applyNewRoots
  split
  · rename_i h
    rw [List.isEmpty_iff.1 h]
    simp [resetWrites]
  · rw [foldl_newRootStep]

/-- The {lit}`libraries_added` loop in closed form: each library applied in turn,
its root collected. -/
theorem foldl_libraryStep (libraries : List LibraryData) (db : RootDatabase)
    (roots : List SourceRootId) :
    libraries.foldl libraryStep (db, roots) =
      (libraries.foldl (fun db l => (db.setSourceRoot l.rootId SourceRoot.empty).applyRootChange
          l.rootId l.rootChange) db,
        roots ++ libraries.map LibraryData.rootId) := by
  induction libraries generalizing db roots with
  | nil => simp
  | cons l libraries ih => rw [List.foldl_cons, libraryStep, ih]; simp

/-- The closed form of step (4); the emptiness guard is immaterial. -/
theorem applyLibrariesAdded_eq (db : RootDatabase) (libraries : List LibraryData) :
    db.applyLibrariesAdded libraries =
      { libraries.foldl (fun db l => (db.setSourceRoot l.rootId SourceRoot.empty).applyRootChange
          l.rootId l.rootChange) db with
        libraryRoots := db.libraryRoots ++ libraries.map LibraryData.rootId } := by
  unfold applyLibrariesAdded
  split
  · rename_i h
    rw [List.isEmpty_iff.1 h]
    simp
  · rw [foldl_libraryStep]

end RootDatabase

end RustAnalyzer
