import RustAnalyzer.Db.ApplyChange
import Mathlib.Data.List.Nodup

/-!
# Listings agree with the per-file inputs

A source root's listing and the per-file queries {lit}`file_source_root` and
{lit}`file_relative_path` describe the same membership.  This module proves that
every store reachable from the empty store by change batches whose added files
are fresh keeps the two in agreement, so that neither view can list a file in
two places.

Main results:

- Definition {lit}`RootDatabase.ListingCoherent`: every listed entry names a file
  added so far whose recorded root and path are the entry's.
- Theorem {lit}`RootDatabase.ListingCoherent.applyChange`: one batch with fresh,
  distinct added files preserves coherence.
- Theorem {lit}`RootDatabase.listing_coherent_of_reachable`: in every reachable
  store, listed entries agree with the per-file inputs and no file is listed in
  two places.
-/

namespace RustAnalyzer

/-- The files a batch adds, in the order {lit}`apply_change` adds them. -/
def AnalysisChange.addedFiles (change : AnalysisChange) : List FileId :=
  change.rootsChanged.entries.flatMap (fun e => e.2.addedIds) ++
    change.librariesAdded.flatMap fun l => l.rootChange.addedIds

namespace RootDatabase

/-- Every listed entry names a file added so far whose recorded source root and
relative path are the entry's. -/
def ListingCoherent (db : RootDatabase) (added : List FileId) : Prop :=
  ∀ r p f, db.Lists r p f → db.fileSourceRoot f = r ∧ db.fileRelativePath f = p ∧ f ∈ added

/-- The stores reachable from the empty store by batches whose added files are
fresh (never added before) and distinct, with the files added so far. -/
inductive Reachable : RootDatabase → List FileId → Prop
  | empty : Reachable RootDatabase.empty []
  | step {db : RootDatabase} {added : List FileId} (change : AnalysisChange) :
      Reachable db added → change.addedFiles.Nodup → (∀ f ∈ change.addedFiles, f ∉ added) →
      Reachable (db.applyChange change) (added ++ change.addedFiles)

/-! ## Writes that keep coherence -/

/-- Coherence survives any update that keeps the per-file inputs and only drops
listed entries. -/
theorem ListingCoherent.of_lists {db db' : RootDatabase} {added : List FileId}
    (h : db.ListingCoherent added) (hroot : db'.fileSourceRoot = db.fileSourceRoot)
    (hpath : db'.fileRelativePath = db.fileRelativePath)
    (hlists : ∀ r p f, db'.Lists r p f → db.Lists r p f) : db'.ListingCoherent added := by
  intro r p f hl
  rw [hroot, hpath]
  exact h r p f (hlists r p f hl)

/-- Resetting roots to empty listings keeps coherence. -/
theorem ListingCoherent.reset {db : RootDatabase} {added : List FileId}
    (h : db.ListingCoherent added) (roots : List SourceRootId) :
    ({ db with sourceRoot := writeAll (resetWrites roots) db.sourceRoot } : RootDatabase).ListingCoherent
      added :=
  h.of_lists rfl rfl fun _ _ _ hl => files_resetWrites_eq_some hl

/-- A root change whose added files are distinct and fresh keeps coherence; its
added files join the files added so far. -/
theorem ListingCoherent.applyRootChange {db : RootDatabase} {added : List FileId}
    (h : db.ListingCoherent added) (r : SourceRootId) (rc : RootChange)
    (hnodup : rc.addedIds.Nodup) (hfresh : ∀ f ∈ rc.addedIds, f ∉ added) :
    (db.applyRootChange r rc).ListingCoherent (added ++ rc.addedIds) := by
  intro r' p f hl
  rw [applyRootChange_eq] at hl ⊢
  simp only [Lists, Function.update_apply] at hl
  have old : db.Lists r' p f →
      writeAll (rc.rootWrites r) db.fileSourceRoot f = r' ∧
        writeAll rc.pathWrites db.fileRelativePath f = p ∧ f ∈ added ++ rc.addedIds := by
    intro hold
    obtain ⟨h1, h2, h3⟩ := h r' p f hold
    have hnot : f ∉ rc.addedIds := fun hf => hfresh f hf h3
    refine ⟨?_, ?_, List.mem_append_left _ h3⟩
    · rwa [writeAll_apply_of_not_mem (by rwa [RootChange.rootWrites_keys])]
    · rwa [writeAll_apply_of_not_mem (by rwa [RootChange.pathWrites_keys])]
  split at hl
  · subst r'
    rcases RootChange.applyFiles_files_eq_some hl with ⟨a, ha, rfl, rfl⟩ | hold
    · have hr : (a.fileId, r) ∈ rc.rootWrites r := List.mem_map_of_mem (fun a : AddFile => (a.fileId, r)) ha
      have hp : (a.fileId, a.path) ∈ rc.pathWrites := List.mem_map_of_mem (fun a : AddFile => (a.fileId, a.path)) ha
      exact ⟨writeAll_apply_of_mem hr (by rwa [RootChange.rootWrites_keys]) _,
        writeAll_apply_of_mem hp (by rwa [RootChange.pathWrites_keys]) _,
        List.mem_append_right _ (List.mem_map_of_mem _ ha)⟩
    · exact old hold
  · exact old hl

/-! ## The steps of a batch -/

/-- Root changes that add distinct fresh files keep the listings coherent. -/
theorem ListingCoherent.applyRootsChanged {db : RootDatabase} {added : List FileId}
    (h : db.ListingCoherent added) (entries : List (SourceRootId × RootChange))
    (hnodup : (entries.flatMap fun e => e.2.addedIds).Nodup)
    (hfresh : ∀ f ∈ entries.flatMap (fun e => e.2.addedIds), f ∉ added) :
    (db.applyRootsChanged entries).ListingCoherent
      (added ++ entries.flatMap fun e => e.2.addedIds) := by
  induction entries generalizing db added with
  | nil => simpa [applyRootsChanged] using h
  | cons e entries ih =>
    rw [List.flatMap_cons, List.nodup_append] at hnodup
    have h' := h.applyRootChange e.1 e.2 hnodup.1
      (fun f hf => hfresh f (List.mem_append_left _ hf))
    have := ih h' hnodup.2.1 fun f hf hmem => (List.mem_append.1 hmem).elim
      (hfresh f (by rw [List.flatMap_cons]; exact List.mem_append_right _ hf))
      (fun he => hnodup.2.2 he hf)
    simpa [applyRootsChanged, List.flatMap_cons] using this

/-- Text changes leave the listings and every file's root and path. -/
theorem applyFilesChanged_fields (db : RootDatabase) (filesChanged : List (FileId × String)) :
    (db.applyFilesChanged filesChanged).sourceRoot = db.sourceRoot ∧
      (db.applyFilesChanged filesChanged).fileSourceRoot = db.fileSourceRoot ∧
      (db.applyFilesChanged filesChanged).fileRelativePath = db.fileRelativePath := by
  induction filesChanged generalizing db with
  | nil => exact ⟨rfl, rfl, rfl⟩
  | cons e filesChanged ih => exact ih (db.setFileText e.1 e.2)

/-- Libraries that add distinct fresh files keep the listings coherent. -/
theorem ListingCoherent.applyLibraries {db : RootDatabase} {added : List FileId}
    (h : db.ListingCoherent added) (libraries : List LibraryData)
    (hnodup : (libraries.flatMap fun l => l.rootChange.addedIds).Nodup)
    (hfresh : ∀ f ∈ libraries.flatMap (fun l => l.rootChange.addedIds), f ∉ added) :
    (libraries.foldl (fun db l => (db.setSourceRoot l.rootId SourceRoot.empty).applyRootChange
        l.rootId l.rootChange) db).ListingCoherent
      (added ++ libraries.flatMap fun l => l.rootChange.addedIds) := by
  induction libraries generalizing db added with
  | nil => simpa using h
  | cons l libraries ih =>
    rw [List.flatMap_cons, List.nodup_append] at hnodup
    have hreset : (db.setSourceRoot l.rootId SourceRoot.empty).ListingCoherent added := by
      simpa [resetWrites, setSourceRoot] using h.reset [l.rootId]
    have h' := hreset.applyRootChange l.rootId l.rootChange hnodup.1
      (fun f hf => hfresh f (List.mem_append_left _ hf))
    have := ih h' hnodup.2.1 fun f hf hmem => (List.mem_append.1 hmem).elim
      (hfresh f (by rw [List.flatMap_cons]; exact List.mem_append_right _ hf))
      (fun he => hnodup.2.2 he hf)
    simpa [List.flatMap_cons] using this

/-- One batch whose added files are distinct and fresh keeps coherence. -/
theorem ListingCoherent.applyChange {db : RootDatabase} {added : List FileId}
    (h : db.ListingCoherent added) (change : AnalysisChange) (hnodup : change.addedFiles.Nodup)
    (hfresh : ∀ f ∈ change.addedFiles, f ∉ added) :
    (db.applyChange change).ListingCoherent (added ++ change.addedFiles) := by
  unfold AnalysisChange.addedFiles at hnodup hfresh ⊢
  rw [List.nodup_append] at hnodup
  have h1 : (db.applyNewRoots change.newRoots).ListingCoherent added := by
    rw [applyNewRoots_eq]
    exact (h.reset _).of_lists rfl rfl fun _ _ _ => id
  have h2 := h1.applyRootsChanged change.rootsChanged.entries hnodup.1
    fun f hf => hfresh f (List.mem_append_left _ hf)
  obtain ⟨hs, hr, hp⟩ := applyFilesChanged_fields (db.applyNewRoots change.newRoots |>.applyRootsChanged
    change.rootsChanged.entries) change.filesChanged
  have h3 := (h2.of_lists hr hp fun r p f hl => by rwa [Lists, ← hs]).applyLibraries
    change.librariesAdded hnodup.2.1 fun f hf hmem => (List.mem_append.1 hmem).elim
      (hfresh f (List.mem_append_right _ hf)) (fun he => hnodup.2.2 he hf)
  rw [RootDatabase.applyChange, applyLibrariesAdded_eq, ← List.append_assoc]
  cases change.crateGraph <;> exact h3.of_lists rfl rfl fun _ _ _ => id

/-- In every store reachable by batches with fresh added files, each listed
entry {lit}`p -> f` of root {lit}`r` has {lit}`file_source_root(f) = r` and
{lit}`file_relative_path(f) = p`, and no file is listed in two roots or at two
paths. -/
theorem listing_coherent_of_reachable {db : RootDatabase} {added : List FileId}
    (h : db.Reachable added) :
    (∀ r p f, db.Lists r p f → db.fileSourceRoot f = r ∧ db.fileRelativePath f = p) ∧
      ∀ r p r' p' f, db.Lists r p f → db.Lists r' p' f → r = r' ∧ p = p' := by
  have hcoh : db.ListingCoherent added := by
    induction h with
    | empty => intro r p f hl; cases hl
    | step change _ hnodup hfresh ih => exact ih.applyChange change hnodup hfresh
  refine ⟨fun r p f hl => ⟨(hcoh r p f hl).1, (hcoh r p f hl).2.1⟩, fun r p r' p' f hl hl' => ?_⟩
  obtain ⟨h1, h2, -⟩ := hcoh r p f hl
  obtain ⟨h1', h2', -⟩ := hcoh r' p' f hl'
  exact ⟨h1.symm.trans h1', h2.symm.trans h2'⟩

/-- A batch registering local root {lit}`0` with {lit}`lib.rs` as file {lit}`1`. -/
def oneFileChange : AnalysisChange where
  newRoots := [(⟨0⟩, true)]
  rootsChanged := ⟨[(⟨0⟩, ⟨[⟨⟨1⟩, "lib.rs", "mod foo;"⟩], []⟩)], by decide⟩
  filesChanged := []
  librariesAdded := []
  crateGraph := some ⟨[(⟨0⟩, ⟨1⟩)]⟩

/-- Registering root {lit}`0` with {lit}`lib.rs` in the empty store leaves
coherent listings. -/
theorem listing_coherent_one_file :
    (∀ r p f, (RootDatabase.empty.applyChange oneFileChange).Lists r p f →
        (RootDatabase.empty.applyChange oneFileChange).fileSourceRoot f = r ∧
          (RootDatabase.empty.applyChange oneFileChange).fileRelativePath f = p) ∧
      ∀ r p r' p' f, (RootDatabase.empty.applyChange oneFileChange).Lists r p f →
        (RootDatabase.empty.applyChange oneFileChange).Lists r' p' f → r = r' ∧ p = p' :=
  listing_coherent_of_reachable (Reachable.step oneFileChange Reachable.empty (by decide) (by decide))

end RootDatabase

end RustAnalyzer
