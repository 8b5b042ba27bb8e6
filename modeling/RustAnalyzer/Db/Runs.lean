import RustAnalyzer.Db.Merge

/-!
# Runs of change batches

{lit}`apply_change` is the store's only mutation, so the store's history is a
run: a list of batches applied in order.  From the closed form of one batch, a
run writes every per-file input with the one list of its batches' writes in
order, so the last write to a file wins and a file no batch writes keeps its
value; it appends each batch's new local and library roots to the root lists;
and it keeps the last crate graph a batch brings.  Listings are no write lists,
as a root change rewrites the listing it finds, but they are independent per
root: a root's listing after a run is what the batches naming that root make of
it, the other batches being skipped.  Registering a root, as a new root or a
library, empties its listing first, so the run's history before the
registration is forgotten.

Main results:

- Theorem {lit}`RootDatabase.foldl_applyChange_eq`: a run in closed form.
- Theorem {lit}`RootDatabase.sourceRoot_foldl_applyChange`: a root's listing
  after a run is its listing after the run's batches that name it.
- Theorem {lit}`RootDatabase.sourceRoot_foldl_of_registered`: a root's listing
  after a run forgets everything before the last batch registering it.
-/

namespace RustAnalyzer

namespace AnalysisChange

/-- A root's listing after a batch depends only on its listing once the batch's
new roots are emptied. -/
theorem applySourceRoots_apply_congr (c : AnalysisChange) {sr sr' : SourceRootId → SourceRoot}
    {r : SourceRootId}
    (h : writeAll (RootDatabase.resetWrites (c.newRoots.map Prod.fst)) sr r =
      writeAll (RootDatabase.resetWrites (c.newRoots.map Prod.fst)) sr' r) :
    c.applySourceRoots sr r = c.applySourceRoots sr' r := by
  refine writeAll_apply_congr _ ?_
  unfold rootsListing
  cases c.rootsChanged.entries.lookup r <;> simp only [h]

/-- A batch that names a root nowhere leaves its listing. -/
theorem applySourceRoots_of_not_named {c : AnalysisChange} {r : SourceRootId}
    (h : r ∉ c.namedRoots) (sr : SourceRootId → SourceRoot) : c.applySourceRoots sr r = sr r := by
  simp only [namedRoots, registeredRoots, changedRoots, List.mem_append, not_or] at h
  obtain ⟨⟨hnew, hlib⟩, hchanged⟩ := h
  rw [← keys_libraryListings] at hlib
  rw [← RootDatabase.keys_resetWrites (c.newRoots.map Prod.fst)] at hnew
  rw [applySourceRoots, writeAll_apply_of_not_mem hlib]
  unfold rootsListing
  rw [lookup_eq_none_of_not_mem hchanged]
  exact writeAll_apply_of_not_mem hnew sr

/-- At a root a batch registers, as a new root or a library, the listing the
batch leaves is the one it makes from an empty listing. -/
theorem applySourceRoots_of_registered {c : AnalysisChange} {r : SourceRootId}
    (h : r ∈ c.registeredRoots) (sr : SourceRootId → SourceRoot) :
    c.applySourceRoots sr r = c.applySourceRoots (fun _ => SourceRoot.empty) r := by
  rcases List.mem_append.1 h with hnew | hlib
  · refine c.applySourceRoots_apply_congr ?_
    rw [← RootDatabase.keys_resetWrites (c.newRoots.map Prod.fst)] at hnew
    exact writeAll_apply_of_mem_keys hnew sr _
  · rw [← keys_libraryListings] at hlib
    exact writeAll_apply_of_mem_keys hlib _ _

end AnalysisChange

namespace RootDatabase

/-- The listings after a batch are the batch's listing writes over the store's. -/
theorem sourceRoot_applyChange (db : RootDatabase) (c : AnalysisChange) :
    (db.applyChange c).sourceRoot = c.applySourceRoots db.sourceRoot := by
  rw [applyChange_eq]

/-- A run of batches in closed form: each per-file input is written by the
batches' writes in order, the root lists grow by each batch's new local and
library roots in order, each listing is rewritten by each batch in turn, and
the crate graph is the last one a batch brings, or the store's if none does. -/
theorem foldl_applyChange_eq (db : RootDatabase) (cs : List AnalysisChange) :
    cs.foldl applyChange db =
      { fileText := writeAll (cs.flatMap AnalysisChange.textWrites) db.fileText
        fileRelativePath := writeAll (cs.flatMap AnalysisChange.pathWrites) db.fileRelativePath
        fileSourceRoot := writeAll (cs.flatMap AnalysisChange.rootWrites) db.fileSourceRoot
        sourceRoot := cs.foldl (fun sr c => c.applySourceRoots sr) db.sourceRoot
        localRoots := db.localRoots ++ cs.flatMap AnalysisChange.newLocalRoots
        libraryRoots := db.libraryRoots ++ cs.flatMap fun c => c.librariesAdded.map LibraryData.rootId
        crateGraph := ((cs.filterMap AnalysisChange.crateGraph).getLast?).getD db.crateGraph } := by
  induction cs generalizing db with
  | nil => simp [writeAll_nil]
  | cons c cs ih =>
    rw [List.foldl_cons, ih, applyChange_eq]
    cases hg : c.crateGraph <;>
      simp [List.flatMap_cons, writeAll_append, List.filterMap_cons, hg, List.getLast?_cons]

/-- Runs from two stores that agree on a root's listing agree on it after the
run and after the run's batches that name the root. -/
theorem sourceRoot_foldl_filter (r : SourceRootId) (cs : List AnalysisChange) :
    ∀ {db db' : RootDatabase}, db.sourceRoot r = db'.sourceRoot r →
      (cs.foldl applyChange db).sourceRoot r =
        ((cs.filter fun c => r ∈ c.namedRoots).foldl applyChange db').sourceRoot r := by
  induction cs with
  | nil => exact id
  | cons c cs ih =>
    intro db db' h
    by_cases hc : r ∈ c.namedRoots
    · rw [List.filter_cons_of_pos (by simpa using hc), List.foldl_cons, List.foldl_cons]
      refine ih ?_
      rw [sourceRoot_applyChange, sourceRoot_applyChange]
      exact c.applySourceRoots_apply_congr (writeAll_apply_congr _ h)
    · rw [List.filter_cons_of_neg (by simpa using hc), List.foldl_cons]
      refine ih ?_
      rw [sourceRoot_applyChange, AnalysisChange.applySourceRoots_of_not_named hc, h]

/-- Roots are independent: a root's listing after a run is its listing after
the run's batches that name the root, applied alone in the same order; a root
no batch names keeps its listing. -/
theorem sourceRoot_foldl_applyChange (db : RootDatabase) (cs : List AnalysisChange)
    (r : SourceRootId) :
    (cs.foldl applyChange db).sourceRoot r =
      ((cs.filter fun c => r ∈ c.namedRoots).foldl applyChange db).sourceRoot r :=
  sourceRoot_foldl_filter r cs rfl

/-- Runs from two stores that agree on a root's listing agree on it after. -/
theorem sourceRoot_foldl_congr {r : SourceRootId} (cs : List AnalysisChange) {db db' : RootDatabase}
    (h : db.sourceRoot r = db'.sourceRoot r) :
    (cs.foldl applyChange db).sourceRoot r = (cs.foldl applyChange db').sourceRoot r :=
  (sourceRoot_foldl_filter r cs h).trans (sourceRoot_foldl_filter r cs rfl).symm

/-- Registering a root cuts its history: after a run, the listing of a root
that batch {lean}`c` registers, as a new root or a library, depends neither on
the store the run started from nor on the batches before {lean}`c`. -/
theorem sourceRoot_foldl_of_registered {c : AnalysisChange} {r : SourceRootId}
    (h : r ∈ c.registeredRoots) (cs cs' : List AnalysisChange) (db db' : RootDatabase) :
    ((cs ++ c :: cs').foldl applyChange db).sourceRoot r =
      ((c :: cs').foldl applyChange db').sourceRoot r := by
  rw [List.foldl_append, List.foldl_cons, List.foldl_cons]
  refine sourceRoot_foldl_congr cs' ?_
  rw [sourceRoot_applyChange, sourceRoot_applyChange, c.applySourceRoots_of_registered h,
    c.applySourceRoots_of_registered h db'.sourceRoot]

/-- Registering root {lit}`0` after deleting {lit}`a.rs` from it leaves the
listing a fresh store gets from the registration alone. -/
theorem sourceRoot_reregistered_after_removeA :
    ⟨0⟩ ∈ oneFileChange.registeredRoots ∧
      (([removeA] ++ oneFileChange :: []).foldl applyChange mergeStore).sourceRoot ⟨0⟩ =
        ((oneFileChange :: []).foldl applyChange empty).sourceRoot ⟨0⟩ :=
  ⟨by decide, sourceRoot_foldl_of_registered (by decide) [removeA] [] mergeStore empty⟩

end RootDatabase

end RustAnalyzer
