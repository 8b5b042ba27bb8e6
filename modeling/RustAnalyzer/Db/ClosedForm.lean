import RustAnalyzer.Db.Listing

/-!
# A whole batch as write lists

Every per-file input that {lit}`apply_change` writes is written by a list of
writes that depends on the batch alone.  The listings are the exception: each
root change rewrites the listing it finds.  The roots of {lit}`roots_changed`
are distinct, so every changed root reads the listing the new-root step left,
and the whole batch takes the closed form below.  The merge law and the
provenance of listed entries are read off it.

Main results:

- Theorem {lit}`RootChange.applyFiles_files`: a root change writes its
  insertions and then its removals into the listing.
- Theorem {lit}`RootDatabase.applyRootsChanged_eq`: the root changes of a batch
  as write lists, each changed root's listing rewritten once.
- Theorem {lit}`RootDatabase.applyChange_eq`: the whole batch as write lists.
- Theorem {lit}`RootDatabase.lists_applyChange`: an entry listed after a batch
  was listed before, or the batch adds its file to that root.
- Theorem {lit}`RootDatabase.lists_applyChanges`: over a run of batches, an
  entry listed at the end was listed at the start or added by one of them.
-/

namespace RustAnalyzer

/-! ## Lookup in a list of root changes -/

section Lookup

variable {α β : Type} [DecidableEq α]

/-- A key absent from a list of pairs looks up nothing. -/
theorem lookup_eq_none_of_not_mem {es : List (α × β)} {a : α} (h : a ∉ es.map Prod.fst) :
    es.lookup a = none :=
  List.lookup_eq_none_iff.2 fun e he => by
    simpa using fun hae : a = e.1 => h (hae ▸ List.mem_map_of_mem Prod.fst he)

/-- A successful lookup finds a pair of the list. -/
theorem mem_of_lookup_eq_some {es : List (α × β)} {a : α} {b : β} (h : es.lookup a = some b) :
    (a, b) ∈ es := by
  obtain ⟨l₁, l₂, rfl, -⟩ := List.lookup_eq_some_iff.1 h
  simp

end Lookup

/-! ## Listings as writes -/

namespace RootChange

/-- The listing writes of a root change: its insertions, then its removals. -/
def fileWrites (rc : RootChange) : List (RelativePathBuf × Option FileId) :=
  rc.added.map (fun a => (a.path, some a.fileId)) ++ rc.removed.map fun r => (r.path, none)

/-- The files a root change removes. -/
def removedIds (rc : RootChange) : List FileId :=
  rc.removed.map RemoveFile.fileId

/-- Inserting the added files one by one writes their paths in order. -/
theorem files_foldl_insert (added : List AddFile) (sr : SourceRoot) :
    (added.foldl (fun sr a => sr.insert a.path a.fileId) sr).files =
      writeAll (added.map fun a => (a.path, some a.fileId)) sr.files := by
  induction added generalizing sr with
  | nil => rfl
  | cons a added ih => exact ih _

/-- Removing the removed files one by one clears their paths in order. -/
theorem files_foldl_remove (removed : List RemoveFile) (sr : SourceRoot) :
    (removed.foldl (fun sr r => sr.remove r.path) sr).files =
      writeAll (removed.map fun r => (r.path, none)) sr.files := by
  induction removed generalizing sr with
  | nil => rfl
  | cons r removed ih => exact ih _

/-- A root change rewrites its listing by its file writes: insertions, then
removals. -/
theorem applyFiles_files (rc : RootChange) (sr : SourceRoot) :
    (rc.applyFiles sr).files = writeAll rc.fileWrites sr.files := by
  rw [applyFiles, files_foldl_remove, files_foldl_insert, fileWrites, writeAll_append]

/-- The text writes of a root change are keyed by the files it adds and removes. -/
theorem mem_textWrites {rc : RootChange} {w : FileId × String} (hw : w ∈ rc.textWrites) :
    (∃ a ∈ rc.added, w = (a.fileId, a.text)) ∨ (w.1 ∈ rc.removedIds ∧ w.2 = "") := by
  rcases List.mem_append.1 hw with hw | hw
  · obtain ⟨a, ha, rfl⟩ := List.mem_map.1 hw
    exact .inl ⟨a, ha, rfl⟩
  · obtain ⟨r, hr, rfl⟩ := List.mem_map.1 hw
    exact .inr ⟨List.mem_map_of_mem _ hr, rfl⟩

/-- The text writes of two root changes agree when neither adds a file the
other adds or removes. -/
theorem textWrites_agree {rc rc' : RootChange}
    (h : ∀ f ∈ rc.addedIds, f ∉ rc'.addedIds ∧ f ∉ rc'.removedIds)
    (h' : ∀ f ∈ rc'.addedIds, f ∉ rc.removedIds) : WritesAgree rc.textWrites rc'.textWrites := by
  intro w hw w' hw' hk
  rcases mem_textWrites hw with ⟨a, ha, rfl⟩ | ⟨hr, hv⟩
  · have hf := h a.fileId (List.mem_map_of_mem _ ha)
    rcases mem_textWrites hw' with ⟨a', ha', rfl⟩ | ⟨hr', -⟩
    · change a.fileId = a'.fileId at hk
      exact absurd (List.mem_map_of_mem AddFile.fileId ha') (hk ▸ hf.1)
    · exact absurd hr' (hk ▸ hf.2)
  · rcases mem_textWrites hw' with ⟨a', ha', rfl⟩ | ⟨-, hv'⟩
    · exact absurd hr (hk ▸ h' a'.fileId (List.mem_map_of_mem _ ha'))
    · rw [hv, hv']

end RootChange

/-- The listings after root changes with distinct roots: each changed root's
listing rewritten by its change. -/
def rootsListing (entries : List (SourceRootId × RootChange)) (sr : SourceRootId → SourceRoot)
    (r : SourceRootId) : SourceRoot :=
  match entries.lookup r with
  | some rc => rc.applyFiles (sr r)
  | none => sr r

/-- A root change of a root that no later entry names can be applied first. -/
theorem rootsListing_cons {entries : List (SourceRootId × RootChange)} {r : SourceRootId}
    (hr : r ∉ entries.map Prod.fst) (rc : RootChange) (sr : SourceRootId → SourceRoot) :
    rootsListing ((r, rc) :: entries) sr =
      rootsListing entries (Function.update sr r (rc.applyFiles (sr r))) := by
  funext r'
  unfold rootsListing
  rw [List.lookup_cons]
  by_cases h : r' = r
  · subst h
    simp [lookup_eq_none_of_not_mem hr]
  · rw [show (r' == r) = false from beq_eq_false_iff_ne.2 h]
    cases entries.lookup r' <;> simp [Function.update_noteq h]

/-! ## The batch in closed form -/

namespace RootDatabase

/-- The closed form of step (2), for root changes with distinct roots. -/
theorem applyRootsChanged_eq (db : RootDatabase) {entries : List (SourceRootId × RootChange)}
    (hnodup : (entries.map Prod.fst).Nodup) :
    db.applyRootsChanged entries =
      { db with
          fileText := writeAll (entries.flatMap (·.2.textWrites)) db.fileText
          fileRelativePath := writeAll (entries.flatMap (·.2.pathWrites)) db.fileRelativePath
          fileSourceRoot := writeAll (entries.flatMap fun e => e.2.rootWrites e.1) db.fileSourceRoot
          sourceRoot := rootsListing entries db.sourceRoot } := by
  induction entries generalizing db with
  | nil => rfl
  | cons e entries ih =>
    obtain ⟨r, rc⟩ := e
    rw [List.map_cons, List.nodup_cons] at hnodup
    rw [applyRootsChanged, List.foldl_cons, ← applyRootsChanged, ih _ hnodup.2, applyRootChange_eq,
      rootsListing_cons hnodup.1]
    simp only [List.flatMap_cons, writeAll_append]

/-- The closed form of step (3). -/
theorem applyFilesChanged_eq (db : RootDatabase) (filesChanged : List (FileId × String)) :
    db.applyFilesChanged filesChanged = { db with fileText := writeAll filesChanged db.fileText } := by
  induction filesChanged generalizing db with
  | nil => rfl
  | cons e filesChanged ih => exact ih _

/-- The library loop of step (4) as write lists: each library root gets the
listing of its files alone. -/
theorem foldl_library_eq (libraries : List LibraryData) (db : RootDatabase) :
    libraries.foldl (fun db l => (db.setSourceRoot l.rootId SourceRoot.empty).applyRootChange
        l.rootId l.rootChange) db =
      { db with
          fileText := writeAll (libraries.flatMap (·.rootChange.textWrites)) db.fileText
          fileRelativePath := writeAll (libraries.flatMap (·.rootChange.pathWrites))
            db.fileRelativePath
          fileSourceRoot := writeAll (libraries.flatMap fun l => l.rootChange.rootWrites l.rootId)
            db.fileSourceRoot
          sourceRoot := writeAll (libraries.map fun l => (l.rootId, l.rootChange.applyFiles
            SourceRoot.empty)) db.sourceRoot } := by
  induction libraries generalizing db with
  | nil => rfl
  | cons l libraries ih =>
    rw [List.foldl_cons, ih, applyRootChange_eq]
    simp [setSourceRoot, writeAll_append]

end RootDatabase

namespace AnalysisChange

/-- The text writes of a batch: its root changes, its changed files, its libraries. -/
def textWrites (c : AnalysisChange) : List (FileId × String) :=
  c.rootsChanged.entries.flatMap (·.2.textWrites) ++ c.filesChanged ++
    c.librariesAdded.flatMap (·.rootChange.textWrites)

/-- The path writes of a batch. -/
def pathWrites (c : AnalysisChange) : List (FileId × RelativePathBuf) :=
  c.rootsChanged.entries.flatMap (·.2.pathWrites) ++ c.librariesAdded.flatMap (·.rootChange.pathWrites)

/-- The source-root writes of a batch. -/
def rootWrites (c : AnalysisChange) : List (FileId × SourceRootId) :=
  c.rootsChanged.entries.flatMap (fun e => e.2.rootWrites e.1) ++
    c.librariesAdded.flatMap fun l => l.rootChange.rootWrites l.rootId

/-- The listing of each added library root. -/
def libraryListings (c : AnalysisChange) : List (SourceRootId × SourceRoot) :=
  c.librariesAdded.map fun l => (l.rootId, l.rootChange.applyFiles SourceRoot.empty)

/-- A batch's library listings are keyed by its library roots. -/
theorem keys_libraryListings (c : AnalysisChange) :
    c.libraryListings.map Prod.fst = c.librariesAdded.map LibraryData.rootId := by
  simp [libraryListings, Function.comp_def]

/-- The listings after a batch: new roots emptied, changed roots rewritten,
library roots listing their files. -/
def applySourceRoots (c : AnalysisChange) (sr : SourceRootId → SourceRoot) :
    SourceRootId → SourceRoot :=
  writeAll c.libraryListings
    (rootsListing c.rootsChanged.entries
      (writeAll (RootDatabase.resetWrites (c.newRoots.map Prod.fst)) sr))

/-- The new local roots of a batch. -/
def newLocalRoots (c : AnalysisChange) : List SourceRootId :=
  (c.newRoots.filter (·.2)).map Prod.fst

/-- The batch adds {lean}`f` to root {lean}`r`, by a root change or a library. -/
def AddsAt (c : AnalysisChange) (r : SourceRootId) (f : FileId) : Prop :=
  (∃ rc, (r, rc) ∈ c.rootsChanged.entries ∧ f ∈ rc.addedIds) ∨
    ∃ l ∈ c.librariesAdded, l.rootId = r ∧ f ∈ l.rootChange.addedIds

end AnalysisChange

namespace RootDatabase

/-- {lit}`apply_change` in closed form: each per-file input and each listing is
written once, from the batch and the listing the store had. -/
theorem applyChange_eq (db : RootDatabase) (c : AnalysisChange) :
    db.applyChange c =
      { fileText := writeAll c.textWrites db.fileText
        fileRelativePath := writeAll c.pathWrites db.fileRelativePath
        fileSourceRoot := writeAll c.rootWrites db.fileSourceRoot
        sourceRoot := c.applySourceRoots db.sourceRoot
        localRoots := db.localRoots ++ c.newLocalRoots
        libraryRoots := db.libraryRoots ++ c.librariesAdded.map LibraryData.rootId
        crateGraph := c.crateGraph.getD db.crateGraph } := by
  rw [applyChange, applyNewRoots_eq, applyRootsChanged_eq _ c.rootsChanged.keys_nodup,
    applyFilesChanged_eq, applyLibrariesAdded_eq, foldl_library_eq]
  cases c.crateGraph <;>
    simp [applyCrateGraph, AnalysisChange.textWrites, AnalysisChange.pathWrites,
      AnalysisChange.rootWrites, AnalysisChange.applySourceRoots, AnalysisChange.libraryListings,
      AnalysisChange.newLocalRoots, writeAll_append]

/-- An entry listed after a batch was listed before, or the batch adds its file
to that root. -/
theorem lists_applyChange {db : RootDatabase} {c : AnalysisChange} {r : SourceRootId}
    {p : RelativePathBuf} {f : FileId} (h : (db.applyChange c).Lists r p f) :
    db.Lists r p f ∨ c.AddsAt r f := by
  rw [Lists, applyChange_eq] at h
  change (writeAll c.libraryListings _ r).files p = some f at h
  rcases writeAll_apply_cases c.libraryListings _ r with hr | ⟨w, hw, hwr, hv⟩
  · rw [hr] at h
    unfold rootsListing at h
    cases hl : c.rootsChanged.entries.lookup r with
    | none => rw [hl] at h; exact .inl (files_resetWrites_eq_some h)
    | some rc =>
      rw [hl] at h
      rcases RootChange.applyFiles_files_eq_some h with ⟨a, ha, -, rfl⟩ | h
      · exact .inr (.inl ⟨rc, mem_of_lookup_eq_some hl, List.mem_map_of_mem _ ha⟩)
      · exact .inl (files_resetWrites_eq_some h)
  · obtain ⟨l, hl, rfl⟩ := List.mem_map.1 hw
    rw [hv] at h
    rcases RootChange.applyFiles_files_eq_some h with ⟨a, ha, -, rfl⟩ | h
    · exact .inr (.inr ⟨l, hl, hwr, List.mem_map_of_mem _ ha⟩)
    · cases h

/-- Over a run of batches, a listed file was listed before the run or added at
that root by one of its batches: no listing entry appears from nowhere. -/
theorem lists_applyChanges {db : RootDatabase} {cs : List AnalysisChange} {r : SourceRootId}
    {p : RelativePathBuf} {f : FileId} (h : (cs.foldl applyChange db).Lists r p f) :
    db.Lists r p f ∨ ∃ c ∈ cs, c.AddsAt r f := by
  induction cs generalizing db with
  | nil => exact .inl h
  | cons c cs ih =>
    rcases ih h with h | ⟨c', hc', hadd⟩
    · exact (lists_applyChange h).imp_right fun hadd => ⟨c, List.mem_cons_self _ _, hadd⟩
    · exact .inr ⟨c', List.mem_cons_of_mem _ hc', hadd⟩

/-- {lit}`lib.rs`, listed after the batch that registers root {lit}`0`, is
added by that batch. -/
theorem lists_oneFileChange :
    ([oneFileChange].foldl applyChange RootDatabase.empty).Lists ⟨0⟩ "lib.rs" ⟨1⟩ ∧
      (RootDatabase.empty.Lists ⟨0⟩ "lib.rs" ⟨1⟩ ∨ ∃ c ∈ [oneFileChange], c.AddsAt ⟨0⟩ ⟨1⟩) :=
  have h : ([oneFileChange].foldl applyChange RootDatabase.empty).Lists ⟨0⟩ "lib.rs" ⟨1⟩ := by
    unfold Lists; decide
  ⟨h, lists_applyChanges h⟩

end RootDatabase

end RustAnalyzer
