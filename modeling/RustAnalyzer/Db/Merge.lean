import RustAnalyzer.Db.ClosedForm

/-!
# Batching changes

Two batches applied one after the other, against the one batch that
concatenates them.  A root named by both batches gets, in the merged batch, one
root change with the additions of both batches followed by the removals of
both, and {lit}`apply_root_change` performs all additions before all removals.
So a path that the first batch frees and the second fills ends up empty after
the merged batch: batching differs from sequencing there.  Text changes of one
batch can likewise be overtaken by root changes of the other.  Apart from these
two cases the merged batch leaves exactly the store the two batches leave.

Main definitions:

- Definition {lit}`AnalysisChange.merge`: the concatenated batch.
- Structure {lit}`MergePreconditions`: a store and two consecutive batches that
  register each root once and afresh, change no library root, add distinct
  files listed nowhere, and remove only listed files.
- Structure {lit}`MergeSeparated`: the first batch frees no path the second
  fills in the same root, and neither batch changes the text of a file the
  other adds or removes out of order.

Main results:

- Theorem {lit}`RootDatabase.applyChange_merge`: under both, the merged batch
  leaves the same store, every input included.
- Theorem {lit}`applyChange_merge_remove_add`: a store and two batches that meet
  the preconditions, where the merged batch loses the file the second batch
  adds.
-/

namespace RustAnalyzer

/-! ## The merged batch -/

namespace RootChange

/-- One root's changes across two batches, the first batch's files first. -/
def append (rc rc' : RootChange) : RootChange :=
  ⟨rc.added ++ rc'.added, rc.removed ++ rc'.removed⟩

end RootChange

/-- Two {lit}`roots_changed` maps merged: a root of the first map gets its
change followed by the second map's change of it; the second map's other roots
follow. -/
def mergeEntries : List (SourceRootId × RootChange) → List (SourceRootId × RootChange) →
    List (SourceRootId × RootChange)
  | [], es' => es'
  | (r, rc) :: es, es' =>
    match es'.lookup r with
    | some rc' => (r, rc.append rc') :: mergeEntries es (es'.filter fun e => e.1 != r)
    | none => (r, rc) :: mergeEntries es es'

/-- Dropping the entries of one key keeps the lookup of every other key. -/
theorem lookup_filter_ne {es : List (SourceRootId × RootChange)} {r k : SourceRootId}
    (h : r ≠ k) : (es.filter fun e => e.1 != k).lookup r = es.lookup r := by
  induction es with
  | nil => rfl
  | cons e es ih =>
    obtain ⟨k', v⟩ := e
    rw [List.filter_cons, List.lookup_cons]
    by_cases hk : k' = k
    · subst hk
      simp [beq_eq_false_iff_ne.2 h, ih]
    · simp [hk, List.lookup_cons, ih]

/-- A root of the merged map has the change of the first map followed by the
change of the second. -/
theorem lookup_mergeEntries (es es' : List (SourceRootId × RootChange)) (r : SourceRootId) :
    (mergeEntries es es').lookup r =
      match es.lookup r, es'.lookup r with
      | some rc, some rc' => some (rc.append rc')
      | some rc, none => some rc
      | none, o => o := by
  induction es generalizing es' with
  | nil => show es'.lookup r = _; cases es'.lookup r <;> rfl
  | cons e es ih =>
    obtain ⟨k, rc⟩ := e
    unfold mergeEntries
    by_cases hr : r = k
    · subst hr
      cases hl : es'.lookup r <;> simp [hl, List.lookup_cons]
    · have hne : (r == k) = false := beq_eq_false_iff_ne.2 hr
      cases hl : es'.lookup k <;> simp [List.lookup_cons, hne, ih, lookup_filter_ne hr]

/-- A key of the merged map is a key of one of the two maps. -/
theorem mem_keys_mergeEntries {es es' : List (SourceRootId × RootChange)} {r : SourceRootId}
    (h : r ∈ (mergeEntries es es').map Prod.fst) : r ∈ es.map Prod.fst ∨ r ∈ es'.map Prod.fst := by
  induction es generalizing es' with
  | nil => exact .inr h
  | cons e es ih =>
    obtain ⟨k, rc⟩ := e
    unfold mergeEntries at h
    split at h <;> rcases List.mem_cons.1 h with rfl | h
    · simp
    · exact (ih h).imp (List.mem_cons_of_mem _) fun hr =>
        ((List.filter_sublist _).map Prod.fst).subset hr
    · simp
    · exact (ih h).imp_left (List.mem_cons_of_mem _)

/-- Merging two maps with distinct keys gives distinct keys. -/
theorem nodup_keys_mergeEntries {es es' : List (SourceRootId × RootChange)}
    (h : (es.map Prod.fst).Nodup) (h' : (es'.map Prod.fst).Nodup) :
    ((mergeEntries es es').map Prod.fst).Nodup := by
  induction es generalizing es' with
  | nil => exact h'
  | cons e es ih =>
    obtain ⟨k, rc⟩ := e
    rw [List.map_cons, List.nodup_cons] at h
    have hfresh : ∀ {es''}, k ∉ es''.map Prod.fst → k ∉ (mergeEntries es es'').map Prod.fst :=
      fun hk hm => (mem_keys_mergeEntries hm).elim h.1 hk
    unfold mergeEntries
    split
    · exact List.nodup_cons.2
        ⟨hfresh (by simp), ih h.2 (h'.sublist ((List.filter_sublist _).map Prod.fst))⟩
    · rename_i hl
      refine List.nodup_cons.2 ⟨hfresh fun hk => ?_, ih h.2 h'⟩
      obtain ⟨⟨k', v⟩, he, rfl⟩ := List.mem_map.1 hk
      simpa using List.lookup_eq_none_iff.1 hl _ he

/-- {lit}`roots_changed` of the merged batch. -/
def RootsChanged.merge (rc rc' : RootsChanged) : RootsChanged :=
  ⟨mergeEntries rc.entries rc'.entries, nodup_keys_mergeEntries rc.keys_nodup rc'.keys_nodup⟩

/-- The merged batch: new roots, root changes, text changes and libraries
concatenated, and the second batch's crate graph if it has one. -/
def AnalysisChange.merge (c c' : AnalysisChange) : AnalysisChange where
  newRoots := c.newRoots ++ c'.newRoots
  rootsChanged := c.rootsChanged.merge c'.rootsChanged
  filesChanged := c.filesChanged ++ c'.filesChanged
  librariesAdded := c.librariesAdded ++ c'.librariesAdded
  crateGraph :=
    match c'.crateGraph with
    | some crateGraph => some crateGraph
    | none => c.crateGraph

/-! ## Writes of a merged map -/

section Writes

variable {α β : Type} [DecidableEq α] (W : SourceRootId × RootChange → List (α × β))

/-- The writes of one entry move to the front of a map's writes when they agree
with the writes of every other root. -/
theorem writeAll_flatMap_extract {es : List (SourceRootId × RootChange)} {r : SourceRootId}
    {rc : RootChange} (hnodup : (es.map Prod.fst).Nodup) (h : (r, rc) ∈ es)
    (hagree : ∀ e ∈ es, e.1 ≠ r → WritesAgree (W (r, rc)) (W e)) (g : α → β) :
    writeAll (es.flatMap W) g =
      writeAll ((es.filter fun e => e.1 != r).flatMap W) (writeAll (W (r, rc)) g) := by
  induction es generalizing g with
  | nil => cases h
  | cons e es ih =>
    obtain ⟨k, v⟩ := e
    rw [List.map_cons, List.nodup_cons] at hnodup
    by_cases hk : k = r
    · subst hk
      have hv : v = rc := by
        rcases List.mem_cons.1 h with he | he
        · cases he; rfl
        · exact absurd (List.mem_map_of_mem Prod.fst he) hnodup.1
      subst hv
      have hfilter : (es.filter fun e => e.1 != k) = es :=
        List.filter_eq_self.2 fun e he => by
          have hm : e.1 ∈ es.map Prod.fst := List.mem_map_of_mem Prod.fst he
          simpa using fun hek : e.1 = k => hnodup.1 (hek ▸ hm)
      simp [hfilter, writeAll_append]
    · have h' : (r, rc) ∈ es := (List.mem_cons.1 h).resolve_left fun he => hk (by cases he; rfl)
      rw [List.flatMap_cons, writeAll_append, ih hnodup.2 h'
        (fun e he hne => hagree e (List.mem_cons_of_mem _ he) hne),
        writeAll_comm (hagree (k, v) (List.mem_cons_self _ _) hk)]
      simp [hk, writeAll_append]

/-- The writes of a merged map are those of the first map followed by those of
the second, when each root's merged change writes its two changes in turn and
changes of different roots agree. -/
theorem writeAll_mergeEntries {es es' : List (SourceRootId × RootChange)}
    (hnodup : (es.map Prod.fst).Nodup) (hnodup' : (es'.map Prod.fst).Nodup)
    (hsplit : ∀ r rc rc', (r, rc) ∈ es → (r, rc') ∈ es' → ∀ g,
      writeAll (W (r, rc.append rc')) g = writeAll (W (r, rc')) (writeAll (W (r, rc)) g))
    (hagree : ∀ e ∈ es, ∀ e' ∈ es', e.1 ≠ e'.1 → WritesAgree (W e') (W e))
    (hagree' : ∀ e ∈ es', ∀ e' ∈ es', e.1 ≠ e'.1 → WritesAgree (W e) (W e')) (g : α → β) :
    writeAll ((mergeEntries es es').flatMap W) g =
      writeAll (es'.flatMap W) (writeAll (es.flatMap W) g) := by
  induction es generalizing es' g with
  | nil => rfl
  | cons e es ih =>
    obtain ⟨r, rc⟩ := e
    rw [List.map_cons, List.nodup_cons] at hnodup
    have hsub : ∀ {es'' : List (SourceRootId × RootChange)}, es'' ⊆ es' →
        ∀ e ∈ es, ∀ e' ∈ es'', e.1 ≠ e'.1 → WritesAgree (W e') (W e) :=
      fun hs e he e' he' => hagree e (List.mem_cons_of_mem _ he) e' (hs he')
    unfold mergeEntries
    split
    · rename_i rc' hl
      have hmem := mem_of_lookup_eq_some hl
      have hf : (es'.filter fun e => e.1 != r) ⊆ es' := (List.filter_sublist _).subset
      have hes : WritesAgree (es.flatMap W) (W (r, rc')) := by
        intro w hw w' hw'
        obtain ⟨e, he, hw⟩ := List.mem_flatMap.1 hw
        have hm : e.1 ∈ es.map Prod.fst := List.mem_map_of_mem Prod.fst he
        exact (hagree e (List.mem_cons_of_mem _ he) (r, rc') hmem
          fun hr => hnodup.1 (hr ▸ hm)).symm w hw w' hw'
      rw [List.flatMap_cons, writeAll_append,
        ih hnodup.2 (hnodup'.sublist ((List.filter_sublist _).map Prod.fst))
          (fun r₀ rc₀ rc₀' h₀ h₀' => hsplit r₀ rc₀ rc₀' (List.mem_cons_of_mem _ h₀) (hf h₀'))
          (hsub hf) (fun e he e' he' => hagree' e (hf he) e' (hf he')),
        hsplit r rc rc' (List.mem_cons_self _ _) hmem, writeAll_comm hes,
        writeAll_flatMap_extract W hnodup' hmem (fun e he hne => hagree' _ hmem e he (Ne.symm hne))]
      simp [writeAll_append]
    · rw [List.flatMap_cons, writeAll_append, ih hnodup.2 hnodup'
        (fun r₀ rc₀ rc₀' h₀ h₀' => hsplit r₀ rc₀ rc₀' (List.mem_cons_of_mem _ h₀) h₀')
        (hsub (List.Subset.refl _)) hagree', List.flatMap_cons, writeAll_append]

end Writes

/-- Write lists whose keys are disjoint lists agree. -/
theorem WritesAgree.of_keys {γ δ : Type} {ws ws' : List (δ × γ)} {ks ks' : List δ}
    (hk : ws.map Prod.fst = ks) (hk' : ws'.map Prod.fst = ks') (h : ∀ x ∈ ks, x ∉ ks') :
    WritesAgree ws ws' :=
  WritesAgree.of_disjoint fun w hw => hk' ▸ h w.1 (hk ▸ List.mem_map_of_mem Prod.fst hw)

namespace RootChange

/-- A root change writes the text of exactly the files it adds and removes. -/
@[simp]
theorem textWrites_keys (rc : RootChange) :
    rc.textWrites.map Prod.fst = rc.addedIds ++ rc.removedIds := by
  simp [textWrites, addedIds, removedIds, Function.comp_def]

/-- Appending root changes appends their path writes. -/
theorem pathWrites_append (rc rc' : RootChange) :
    (rc.append rc').pathWrites = rc.pathWrites ++ rc'.pathWrites := by
  simp [pathWrites, append]

/-- Appending root changes appends their root writes. -/
theorem rootWrites_append (rc rc' : RootChange) (r : SourceRootId) :
    (rc.append rc').rootWrites r = rc.rootWrites r ++ rc'.rootWrites r := by
  simp [rootWrites, append]

/-- The text writes of one root's merged change are those of its two changes in
turn, when the second adds no file the first removes. -/
theorem writeAll_textWrites_append {rc rc' : RootChange}
    (h : ∀ f ∈ rc'.addedIds, f ∉ rc.removedIds) (g : FileId → String) :
    writeAll (rc.append rc').textWrites g = writeAll rc'.textWrites (writeAll rc.textWrites g) := by
  have hagree : WritesAgree (rc.removed.map fun r => (r.fileId, ""))
      (rc'.added.map fun a => (a.fileId, a.text)) :=
    WritesAgree.of_keys (by simp [removedIds]) (by simp [addedIds])
      fun f hf hf' => h f hf' hf
  simp only [textWrites, append, List.map_append, writeAll_append]
  rw [writeAll_comm hagree]

/-- The listing of one root's merged change is that of its two changes in
turn, when the second fills no path the first frees. -/
theorem applyFiles_append {rc rc' : RootChange}
    (h : ∀ rm ∈ rc.removed, ∀ a ∈ rc'.added, rm.path ≠ a.path) (sr : SourceRoot) :
    (rc.append rc').applyFiles sr = rc'.applyFiles (rc.applyFiles sr) := by
  have hagree : WritesAgree (rc.removed.map fun r => (r.path, (none : Option FileId)))
      (rc'.added.map fun a => (a.path, some a.fileId)) :=
    WritesAgree.of_keys rfl rfl fun p hp hp' => by
      obtain ⟨rm, hrm, rfl⟩ := List.mem_map.1 (by simpa using hp)
      obtain ⟨a, ha, hpa⟩ := List.mem_map.1 (by simpa using hp')
      exact h rm hrm a ha hpa.symm
  refine SourceRoot.ext fun p => congrFun ?_ p
  simp only [applyFiles_files, fileWrites, append, List.map_append, writeAll_append]
  rw [writeAll_comm hagree]

end RootChange

/-- Writes to files that no root change of a list adds or removes agree with the
text writes of the list. -/
theorem WritesAgree.textWrites_of_not_mem {ι : Type} {ws : List (FileId × String)} {xs : List ι}
    {rc : ι → RootChange}
    (h : ∀ w ∈ ws, ∀ x ∈ xs, w.1 ∉ (rc x).addedIds ∧ w.1 ∉ (rc x).removedIds) :
    WritesAgree ws (xs.flatMap fun x => (rc x).textWrites) :=
  WritesAgree.of_disjoint fun w hw hk => by
    rw [List.map_flatMap] at hk
    obtain ⟨x, hx, hk⟩ := List.mem_flatMap.1 hk
    rw [RootChange.textWrites_keys, List.mem_append] at hk
    exact hk.elim (h w hw x hx).1 (h w hw x hx).2

/-! ## The preconditions -/

/-- Two members of a list whose images, joined, have no repeats share no element
of their images unless they are one member. -/
theorem eq_of_mem_flatMap_of_nodup {γ δ : Type} {l : List γ} {g : γ → List δ}
    (h : (l.flatMap g).Nodup) {a b : γ} {x : δ} (ha : a ∈ l) (hb : b ∈ l) (hxa : x ∈ g a)
    (hxb : x ∈ g b) : a = b := by
  induction l with
  | nil => cases ha
  | cons c l ih =>
    rw [List.flatMap_cons, List.nodup_append] at h
    rcases List.mem_cons.1 ha with rfl | ha' <;> rcases List.mem_cons.1 hb with rfl | hb'
    · rfl
    · exact absurd (List.mem_flatMap.2 ⟨b, hb', hxb⟩ : x ∈ l.flatMap g) (h.2.2 hxa)
    · exact absurd (List.mem_flatMap.2 ⟨a, ha', hxa⟩ : x ∈ l.flatMap g) (h.2.2 hxb)
    · exact ih h.2.1 ha' hb'

namespace AnalysisChange

/-- The roots a batch registers: its new roots and its library roots. -/
def registeredRoots (c : AnalysisChange) : List SourceRootId :=
  c.newRoots.map Prod.fst ++ c.librariesAdded.map LibraryData.rootId

/-- The roots whose listings a batch changes. -/
def changedRoots (c : AnalysisChange) : List SourceRootId :=
  c.rootsChanged.entries.map Prod.fst

/-- Every root a batch names. -/
def namedRoots (c : AnalysisChange) : List SourceRootId :=
  c.registeredRoots ++ c.changedRoots

/-- Every file a batch removes is listed at its path in that root of {lean}`db`. -/
def RemovalsListed (c : AnalysisChange) (db : RootDatabase) : Prop :=
  (∀ e ∈ c.rootsChanged.entries, ∀ rm ∈ e.2.removed, db.Lists e.1 rm.path rm.fileId) ∧
    ∀ l ∈ c.librariesAdded, ∀ rm ∈ l.rootChange.removed, db.Lists l.rootId rm.path rm.fileId

section Added

variable {c : AnalysisChange}

/-- A file that a root change of the batch adds is among the batch's added files. -/
theorem mem_addedFiles_of_entry {e : SourceRootId × RootChange} (he : e ∈ c.rootsChanged.entries)
    {f : FileId} (hf : f ∈ e.2.addedIds) : f ∈ c.addedFiles :=
  List.mem_append_left _ (List.mem_flatMap.2 ⟨e, he, hf⟩)

/-- A file that a library of the batch adds is among the batch's added files. -/
theorem mem_addedFiles_of_library {l : LibraryData} (hl : l ∈ c.librariesAdded) {f : FileId}
    (hf : f ∈ l.rootChange.addedIds) : f ∈ c.addedFiles :=
  List.mem_append_right _ (List.mem_flatMap.2 ⟨l, hl, hf⟩)

/-- A file that a batch adds at some root is among its added files. -/
theorem AddsAt.mem_addedFiles {r : SourceRootId} {f : FileId} (h : c.AddsAt r f) :
    f ∈ c.addedFiles := by
  rcases h with ⟨rc, he, hf⟩ | ⟨l, hl, -, hf⟩
  · exact mem_addedFiles_of_entry he hf
  · exact mem_addedFiles_of_library hl hf

/-- In a batch adding distinct files, one root change at most adds a file. -/
theorem eq_of_mem_addedIds (h : c.addedFiles.Nodup) {e e' : SourceRootId × RootChange}
    (he : e ∈ c.rootsChanged.entries) (he' : e' ∈ c.rootsChanged.entries) {f : FileId}
    (hf : f ∈ e.2.addedIds) (hf' : f ∈ e'.2.addedIds) : e = e' :=
  eq_of_mem_flatMap_of_nodup (List.nodup_append.1 h).1 he he' hf hf'

/-- In a batch adding distinct files, no file is added by a root change and by
a library. -/
theorem not_mem_library_of_entry (h : c.addedFiles.Nodup) {e : SourceRootId × RootChange}
    (he : e ∈ c.rootsChanged.entries) {f : FileId} (hf : f ∈ e.2.addedIds) {l : LibraryData}
    (hl : l ∈ c.librariesAdded) : f ∉ l.rootChange.addedIds := fun hfl =>
  (List.nodup_append.1 h).2.2 (List.mem_flatMap.2 ⟨e, he, hf⟩) (List.mem_flatMap.2 ⟨l, hl, hfl⟩)

end Added

end AnalysisChange

open AnalysisChange

/-- Well-formed consecutive batches {lean}`c` then {lean}`c'` for a store
{lean}`db`: registered roots are
new and registered by one batch, which alone names them; root changes name no
library root; added files are distinct and listed nowhere; removed files are
listed where they are removed when their batch is applied. -/
structure MergePreconditions (db : RootDatabase) (c c' : AnalysisChange) : Prop where
  registered_fresh : ∀ r ∈ c.registeredRoots ++ c'.registeredRoots,
    r ∉ db.localRoots ∧ r ∉ db.libraryRoots
  registered_one_batch : ∀ r ∈ c.registeredRoots ++ c'.registeredRoots,
    r ∉ c.namedRoots ∨ r ∉ c'.namedRoots
  changed_not_library : ∀ r ∈ c.changedRoots ++ c'.changedRoots,
    r ∉ db.libraryRoots ++ c.librariesAdded.map LibraryData.rootId ++
      c'.librariesAdded.map LibraryData.rootId
  added_nodup : (c.addedFiles ++ c'.addedFiles).Nodup
  added_fresh : ∀ f ∈ c.addedFiles ++ c'.addedFiles, ∀ r p, ¬ db.Lists r p f
  removals_listed_first : c.RemovalsListed db
  removals_listed_second : c'.RemovalsListed (db.applyChange c)

/-- The conditions batching needs beyond the preconditions: the first batch
frees no path that the second fills in the same root; the first batch changes
the text of no file the second adds or removes by a root change; the second
changes the text of no file of a library the first adds. -/
structure MergeSeparated (c c' : AnalysisChange) : Prop where
  paths : ∀ r rc rc', (r, rc) ∈ c.rootsChanged.entries → (r, rc') ∈ c'.rootsChanged.entries →
    ∀ rm ∈ rc.removed, ∀ a ∈ rc'.added, rm.path ≠ a.path
  files_changed_first : ∀ w ∈ c.filesChanged, ∀ e ∈ c'.rootsChanged.entries,
    w.1 ∉ e.2.addedIds ∧ w.1 ∉ e.2.removedIds
  files_changed_second : ∀ w ∈ c'.filesChanged, ∀ l ∈ c.librariesAdded,
    w.1 ∉ l.rootChange.addedIds ∧ w.1 ∉ l.rootChange.removedIds

namespace MergePreconditions

variable {db : RootDatabase} {c c' : AnalysisChange} (h : MergePreconditions db c c')
include h

/-- The first batch adds each file once. -/
theorem nodup_addedFiles_first : c.addedFiles.Nodup :=
  (List.nodup_append.1 h.added_nodup).1

/-- The second batch adds each file once. -/
theorem nodup_addedFiles_second : c'.addedFiles.Nodup :=
  (List.nodup_append.1 h.added_nodup).2.1

/-- A file the first batch adds is not added by the second. -/
theorem not_added_second_of_added_first {f : FileId} (hf : f ∈ c.addedFiles) : f ∉ c'.addedFiles :=
  (List.nodup_append.1 h.added_nodup).2.2 hf

/-- A file listed in the store is added by neither batch. -/
theorem not_added_of_lists {r : SourceRootId} {p : RelativePathBuf} {f : FileId}
    (hl : db.Lists r p f) : f ∉ c.addedFiles ∧ f ∉ c'.addedFiles :=
  ⟨fun hf => h.added_fresh f (List.mem_append_left _ hf) r p hl,
    fun hf => h.added_fresh f (List.mem_append_right _ hf) r p hl⟩

/-- A file the first batch removes by a root change is added by neither batch. -/
theorem not_added_of_removed {e : SourceRootId × RootChange} (he : e ∈ c.rootsChanged.entries)
    {f : FileId} (hf : f ∈ e.2.removedIds) : f ∉ c.addedFiles ∧ f ∉ c'.addedFiles := by
  obtain ⟨rm, hrm, rfl⟩ := List.mem_map.1 hf
  exact h.not_added_of_lists (h.removals_listed_first.1 e he rm hrm)

/-- A file the first batch removes from a library is added by neither batch. -/
theorem not_added_of_library_removed {l : LibraryData} (hl : l ∈ c.librariesAdded) {f : FileId}
    (hf : f ∈ l.rootChange.removedIds) : f ∉ c.addedFiles ∧ f ∉ c'.addedFiles := by
  obtain ⟨rm, hrm, rfl⟩ := List.mem_map.1 hf
  exact h.not_added_of_lists (h.removals_listed_first.2 l hl rm hrm)

/-- A file the second batch removes by a root change is listed in the store at
that root or added there by the first batch. -/
theorem lists_or_addsAt_of_removed_second {e : SourceRootId × RootChange}
    (he : e ∈ c'.rootsChanged.entries) {f : FileId} (hf : f ∈ e.2.removedIds) :
    (∃ p, db.Lists e.1 p f) ∨ c.AddsAt e.1 f := by
  obtain ⟨rm, hrm, rfl⟩ := List.mem_map.1 hf
  exact (RootDatabase.lists_applyChange (h.removals_listed_second.1 e he rm hrm)).imp_left
    fun hl => ⟨_, hl⟩

/-- A file the second batch removes by a root change is not added by it. -/
theorem not_added_second_of_removed_second {e : SourceRootId × RootChange}
    (he : e ∈ c'.rootsChanged.entries) {f : FileId} (hf : f ∈ e.2.removedIds) :
    f ∉ c'.addedFiles := by
  rcases h.lists_or_addsAt_of_removed_second he hf with ⟨_, hl⟩ | hadd
  exacts [(h.not_added_of_lists hl).2, h.not_added_second_of_added_first hadd.mem_addedFiles]

/-- A file the second batch removes by a root change and the first batch adds is
added by the first batch to that root. -/
theorem addsAt_of_removed_second {e : SourceRootId × RootChange}
    (he : e ∈ c'.rootsChanged.entries) {f : FileId} (hf : f ∈ e.2.removedIds)
    (hadd : f ∈ c.addedFiles) : c.AddsAt e.1 f :=
  (h.lists_or_addsAt_of_removed_second he hf).resolve_left
    fun ⟨_, hl⟩ => (h.not_added_of_lists hl).1 hadd

/-- A root the first batch registers is named nowhere in the second. -/
theorem not_named_second_of_registered_first {r : SourceRootId} (hr : r ∈ c.registeredRoots) : r ∉ c'.namedRoots :=
  (h.registered_one_batch r (List.mem_append_left _ hr)).resolve_left
    fun hn => hn (List.mem_append_left _ hr)

/-- A root the second batch registers is named nowhere in the first. -/
theorem not_named_first_of_registered_second {r : SourceRootId} (hr : r ∈ c'.registeredRoots) : r ∉ c.namedRoots :=
  (h.registered_one_batch r (List.mem_append_right _ hr)).resolve_right
    fun hn => hn (List.mem_append_left _ hr)

/-! ### Which writes agree -/

/-- Text writes of root changes of different roots, one from each batch, agree. -/
theorem textWrites_agree_across {e e' : SourceRootId × RootChange} (he : e ∈ c.rootsChanged.entries)
    (he' : e' ∈ c'.rootsChanged.entries) (hne : e.1 ≠ e'.1) :
    WritesAgree e'.2.textWrites e.2.textWrites := by
  refine RootChange.textWrites_agree (fun f hf => ⟨fun hf₁ => ?_, fun hf₁ => ?_⟩)
    (fun f hf hf₁ => ?_)
  · exact h.not_added_second_of_added_first (mem_addedFiles_of_entry he hf₁) (mem_addedFiles_of_entry he' hf)
  · exact (h.not_added_of_removed he hf₁).2 (mem_addedFiles_of_entry he' hf)
  · rcases h.addsAt_of_removed_second he' hf₁ (mem_addedFiles_of_entry he hf) with
      ⟨rc, he₁, hf₂⟩ | ⟨l, hl, -, hfl⟩
    · have heq := eq_of_mem_addedIds h.nodup_addedFiles_first he he₁ hf hf₂
      exact hne (by rw [heq])
    · exact not_mem_library_of_entry h.nodup_addedFiles_first he hf hl hfl

/-- Text writes of root changes of different roots of the second batch agree. -/
theorem textWrites_agree_second {e e' : SourceRootId × RootChange} (he : e ∈ c'.rootsChanged.entries)
    (he' : e' ∈ c'.rootsChanged.entries) (hne : e.1 ≠ e'.1) :
    WritesAgree e.2.textWrites e'.2.textWrites := by
  refine RootChange.textWrites_agree (fun f hf => ⟨fun hf₁ => ?_, fun hf₁ => ?_⟩)
    (fun f hf hf₁ => ?_)
  · exact hne (congrArg Prod.fst (eq_of_mem_addedIds h.nodup_addedFiles_second he he' hf hf₁))
  · exact h.not_added_second_of_removed_second he' hf₁ (mem_addedFiles_of_entry he hf)
  · exact h.not_added_second_of_removed_second he hf₁ (mem_addedFiles_of_entry he' hf)

/-- Text writes of the first batch's libraries agree with those of the second
batch's root changes. -/
theorem library_textWrites_agree :
    WritesAgree (c.librariesAdded.flatMap (·.rootChange.textWrites))
      (c'.rootsChanged.entries.flatMap (·.2.textWrites)) := by
  refine WritesAgree.flatMap fun l hl e he => RootChange.textWrites_agree
    (fun f hf => ⟨fun hf₁ => ?_, fun hf₁ => ?_⟩) (fun f hf hf₁ => ?_)
  · exact h.not_added_second_of_added_first (mem_addedFiles_of_library hl hf) (mem_addedFiles_of_entry he hf₁)
  · rcases h.addsAt_of_removed_second he hf₁ (mem_addedFiles_of_library hl hf) with
      ⟨rc, he₁, hf₂⟩ | ⟨l', hl', hr, -⟩
    · exact not_mem_library_of_entry h.nodup_addedFiles_first he₁ hf₂ hl hf
    · refine h.changed_not_library e.1 (List.mem_append_right _ (List.mem_map_of_mem _ he)) ?_
      exact List.mem_append_left _ (List.mem_append_right _ (hr ▸ List.mem_map_of_mem _ hl'))
  · exact (h.not_added_of_library_removed hl hf₁).2 (mem_addedFiles_of_entry he hf)

/-! ### Each input of the merged batch -/

/-- The text writes of the merged batch are those of the two batches in turn. -/
theorem textWrites_merge (hsep : MergeSeparated c c') (g : FileId → String) :
    writeAll (c.merge c').textWrites g = writeAll c'.textWrites (writeAll c.textWrites g) := by
  have hF : WritesAgree c.filesChanged (c'.rootsChanged.entries.flatMap (·.2.textWrites)) :=
    WritesAgree.textWrites_of_not_mem hsep.files_changed_first
  have hF' : WritesAgree (c.librariesAdded.flatMap (·.rootChange.textWrites)) c'.filesChanged :=
    (WritesAgree.textWrites_of_not_mem hsep.files_changed_second).symm
  simp only [AnalysisChange.textWrites, AnalysisChange.merge, RootsChanged.merge,
    List.flatMap_append, writeAll_append]
  rw [writeAll_mergeEntries (·.2.textWrites) c.rootsChanged.keys_nodup c'.rootsChanged.keys_nodup
      (fun r rc rc' he he' => RootChange.writeAll_textWrites_append fun f hf hf₁ =>
        (h.not_added_of_removed he hf₁).2 (mem_addedFiles_of_entry he' hf))
      (fun e he e' he' hne => h.textWrites_agree_across he he' hne)
      (fun e he e' he' hne => h.textWrites_agree_second he he' hne),
    writeAll_comm hF, writeAll_comm hF', writeAll_comm h.library_textWrites_agree]

/-- Writes keyed by the added files, such as the path and source-root writes,
of the merged batch are those of the two batches in turn. -/
theorem addedWrites_merge {γ : Type} (W : SourceRootId × RootChange → List (FileId × γ))
    (L : LibraryData → List (FileId × γ)) (hW : ∀ e, (W e).map Prod.fst = e.2.addedIds)
    (hL : ∀ l, (L l).map Prod.fst = l.rootChange.addedIds)
    (happ : ∀ r rc rc', W (r, rc.append rc') = W (r, rc) ++ W (r, rc')) (g : FileId → γ) :
    writeAll ((mergeEntries c.rootsChanged.entries c'.rootsChanged.entries).flatMap W ++
        (c.librariesAdded ++ c'.librariesAdded).flatMap L) g =
      writeAll (c'.rootsChanged.entries.flatMap W ++ c'.librariesAdded.flatMap L)
        (writeAll (c.rootsChanged.entries.flatMap W ++ c.librariesAdded.flatMap L) g) := by
  have hlib : WritesAgree (c.librariesAdded.flatMap L) (c'.rootsChanged.entries.flatMap W) :=
    WritesAgree.flatMap fun l hl e he => WritesAgree.of_keys (hL l) (hW e) fun f hf hf' =>
      h.not_added_second_of_added_first (mem_addedFiles_of_library hl hf) (mem_addedFiles_of_entry he hf')
  simp only [List.flatMap_append, writeAll_append]
  rw [writeAll_mergeEntries W c.rootsChanged.keys_nodup c'.rootsChanged.keys_nodup
      (fun r rc rc' _ _ g => by rw [happ, writeAll_append])
      (fun e he e' he' _ => WritesAgree.of_keys (hW e') (hW e) fun f hf hf' =>
        h.not_added_second_of_added_first (mem_addedFiles_of_entry he hf') (mem_addedFiles_of_entry he' hf))
      (fun e he e' he' hne => WritesAgree.of_keys (hW e) (hW e') fun f hf hf' =>
        hne (congrArg Prod.fst (eq_of_mem_addedIds h.nodup_addedFiles_second he he' hf hf'))),
    writeAll_comm hlib]

/-- The listings the merged batch leaves are those the two batches leave in turn. -/
theorem applySourceRoots_merge (hsep : MergeSeparated c c') (sr : SourceRootId → SourceRoot) :
    (c.merge c').applySourceRoots sr = c'.applySourceRoots (c.applySourceRoots sr) := by
  have hlib : (c.merge c').libraryListings = c.libraryListings ++ c'.libraryListings := by
    simp [libraryListings, AnalysisChange.merge]
  have hreset : RootDatabase.resetWrites ((c.merge c').newRoots.map Prod.fst) =
      RootDatabase.resetWrites (c.newRoots.map Prod.fst) ++
        RootDatabase.resetWrites (c'.newRoots.map Prod.fst) := by
    simp [RootDatabase.resetWrites, AnalysisChange.merge]
  have hLkeys : c.libraryListings.map Prod.fst = c.librariesAdded.map LibraryData.rootId := by
    simp [libraryListings, Function.comp_def]
  have hNkeys : ∀ roots, (RootDatabase.resetWrites roots).map Prod.fst = roots := by
    simp [RootDatabase.resetWrites, Function.comp_def]
  simp only [applySourceRoots, hlib, hreset, writeAll_append]
  refine congrArg (writeAll c'.libraryListings) (funext fun r => ?_)
  set R := c.rootsChanged.entries
  set R' := c'.rootsChanged.entries
  set N := RootDatabase.resetWrites (c.newRoots.map Prod.fst)
  set N' := RootDatabase.resetWrites (c'.newRoots.map Prod.fst)
  have hM : (c.merge c').rootsChanged.entries = mergeEntries R R' := rfl
  rw [hM]
  by_cases hL : r ∈ c.libraryListings.map Prod.fst
  · -- a library root of the first batch is named by it alone
    have hnamed := h.not_named_second_of_registered_first (List.mem_append_right _ (hLkeys ▸ hL))
    have hR' : R'.lookup r = none := lookup_eq_none_of_not_mem fun hr =>
      hnamed (List.mem_append_right _ hr)
    have hN' : r ∉ N'.map Prod.fst := by
      rw [hNkeys]; exact fun hr => hnamed (List.mem_append_left _ (List.mem_append_left _ hr))
    simp only [rootsListing, hR', writeAll_apply_of_not_mem hN']
    exact writeAll_apply_of_mem_keys hL _ _
  · rw [writeAll_apply_of_not_mem hL]
    by_cases hN : r ∈ N'.map Prod.fst
    · -- a new root of the second batch is not changed by the first
      have hnamed := h.not_named_first_of_registered_second (List.mem_append_left _ (by rwa [hNkeys] at hN))
      have hR : R.lookup r = none := lookup_eq_none_of_not_mem fun hr =>
        hnamed (List.mem_append_right _ hr)
      simp only [rootsListing, lookup_mergeEntries, hR]
      cases R'.lookup r <;> simp only [writeAll_apply_of_mem_keys hN _ (writeAll N sr)]
    · simp only [rootsListing, lookup_mergeEntries, writeAll_apply_of_not_mem hN,
        writeAll_apply_of_not_mem hL]
      cases hl : R.lookup r <;> cases hl' : R'.lookup r <;> try rfl
      exact RootChange.applyFiles_append
        (hsep.paths r _ _ (mem_of_lookup_eq_some hl) (mem_of_lookup_eq_some hl')) _

end MergePreconditions

namespace RootDatabase

/-- Batching is sequencing: under the preconditions and the separation
conditions, the merged batch leaves the store the two batches leave in turn,
every input included. -/
theorem applyChange_merge {db : RootDatabase} {c c' : AnalysisChange}
    (h : MergePreconditions db c c') (hsep : MergeSeparated c c') :
    db.applyChange (c.merge c') = (db.applyChange c).applyChange c' := by
  rw [applyChange_eq, applyChange_eq, applyChange_eq]
  congr 1
  · exact h.textWrites_merge hsep _
  · exact h.addedWrites_merge (·.2.pathWrites) (·.rootChange.pathWrites)
      (fun e => RootChange.pathWrites_keys e.2) (fun l => RootChange.pathWrites_keys l.rootChange)
      (fun _ rc rc' => RootChange.pathWrites_append rc rc') _
  · exact h.addedWrites_merge (fun e => e.2.rootWrites e.1) (fun l => l.rootChange.rootWrites l.rootId)
      (fun e => RootChange.rootWrites_keys e.2 e.1)
      (fun l => RootChange.rootWrites_keys l.rootChange l.rootId)
      (fun r rc rc' => RootChange.rootWrites_append rc rc' r) _
  · exact h.applySourceRoots_merge hsep _
  · simp [AnalysisChange.merge, newLocalRoots, List.filter_append]
  · simp [AnalysisChange.merge]
  · simp only [AnalysisChange.merge]
    cases c'.crateGraph <;> rfl

end RootDatabase

/-! ## Freeing and filling one path -/

/-- A store whose local root {lit}`0` lists {lit}`a.rs` as file {lit}`1`. -/
def mergeStore : RootDatabase :=
  { RootDatabase.empty with
    sourceRoot := Function.update (fun _ => SourceRoot.empty) ⟨0⟩ (SourceRoot.empty.insert "a.rs" ⟨1⟩)
    localRoots := [⟨0⟩] }

/-- A batch deleting {lit}`a.rs`, file {lit}`1`, from root {lit}`0`. -/
def removeA : AnalysisChange where
  newRoots := []
  rootsChanged := ⟨[(⟨0⟩, ⟨[], [⟨⟨1⟩, "a.rs"⟩]⟩)], by decide⟩
  filesChanged := []
  librariesAdded := []
  crateGraph := none

/-- A batch creating file {lit}`2` at {lean}`path` in root {lit}`0`. -/
def addAt (path : RelativePathBuf) : AnalysisChange where
  newRoots := []
  rootsChanged := ⟨[(⟨0⟩, ⟨[⟨⟨2⟩, path, "fn main() {}"⟩], []⟩)], by simp⟩
  filesChanged := []
  librariesAdded := []
  crateGraph := none

/-- Deleting {lit}`a.rs` and then creating a file anywhere in root {lit}`0` meets
the preconditions. -/
theorem mergePreconditions_addAt (path : RelativePathBuf) :
    MergePreconditions mergeStore removeA (addAt path) where
  registered_fresh := by simp [registeredRoots, removeA, addAt]
  registered_one_batch := by simp [registeredRoots, removeA, addAt]
  changed_not_library := by simp [changedRoots, removeA, addAt, mergeStore, RootDatabase.empty]
  added_nodup := by simp [addedFiles, removeA, addAt, RootChange.addedIds]
  added_fresh := by
    intro f hf r p hl
    simp only [addedFiles, removeA, addAt, RootChange.addedIds, List.flatMap_cons,
      List.flatMap_nil, List.map_cons, List.map_nil, List.append_nil, List.nil_append,
      List.mem_singleton] at hf
    subst hf
    unfold RootDatabase.Lists mergeStore at hl
    by_cases hr : r = ⟨0⟩
    · subst hr
      simp only [Function.update_same, SourceRoot.insert_files, SourceRoot.empty_files] at hl
      split at hl <;> simp at hl
    · simp [Function.update_noteq hr] at hl
  removals_listed_first := ⟨by simp [removeA, RootDatabase.Lists, mergeStore], by simp [removeA]⟩
  removals_listed_second := ⟨by simp [addAt], by simp [addAt]⟩

/-- Batching differs from sequencing where the first batch frees a path the
second fills: the preconditions hold, yet after the merged batch root {lit}`0`
lists nothing at {lit}`a.rs`, while after the two batches in turn it lists the
new file there. -/
theorem applyChange_merge_remove_add :
    MergePreconditions mergeStore removeA (addAt "a.rs") ∧
      ((mergeStore.applyChange (removeA.merge (addAt "a.rs"))).sourceRoot ⟨0⟩).files "a.rs" =
        none ∧
      (((mergeStore.applyChange removeA).applyChange (addAt "a.rs")).sourceRoot ⟨0⟩).files "a.rs" =
        some ⟨2⟩ :=
  ⟨mergePreconditions_addAt "a.rs", by decide, by decide⟩

/-- Deleting {lit}`a.rs` and creating {lit}`b.rs` in one batch is the same as in
two. -/
theorem applyChange_merge_remove_add_other :
    mergeStore.applyChange (removeA.merge (addAt "b.rs")) =
      (mergeStore.applyChange removeA).applyChange (addAt "b.rs") :=
  RootDatabase.applyChange_merge (mergePreconditions_addAt "b.rs")
    ⟨fun r rc rc' h h' => by
      simp only [removeA, addAt, List.mem_singleton, Prod.mk.injEq] at h h'
      obtain ⟨rfl, rfl⟩ := h
      obtain ⟨-, rfl⟩ := h'
      decide, by simp [removeA], by simp [removeA]⟩

end RustAnalyzer
