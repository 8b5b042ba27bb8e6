import Mathlib.Logic.Function.Basic
import Mathlib.Data.List.Basic

/-!
# Revisioned input store

The salsa inputs of {lit}`RootDatabase` and the change batch that
{lit}`apply_change` consumes.  Every input query is a total function: an input
that was never set reads as its {lit}`Default` value, and a source root's file
listing, an {lit}`FxHashMap<RelativePathBuf, FileId>`, is a finite partial map
written as a function into {lean}`Option`.

The types of the change batch ({lit}`AnalysisChange`, {lit}`RootChange`,
{lit}`AddFile`, {lit}`RemoveFile`, {lit}`LibraryData`) are declared in
{lit}`ra_ide_api/src/lib.rs`, which is not among the sources; their fields
follow the spec's description of a change batch.

Main definitions:

- Structure {lit}`RootDatabase`: file text, file path and source root per file,
  the listing of every source root, the local and library root lists and the
  crate graph.
- Structure {lit}`AnalysisChange`: new roots, per-root file changes (a map, so
  its keys carry a {lit}`Nodup` proof), text changes, new libraries and an
  optional crate graph.
-/

namespace RustAnalyzer

/-! ## Identifiers and the cancellation channel -/

/-- {lit}`FileId(pub u32)` of {lit}`ra_db`. -/
structure FileId where
  val : Nat
deriving DecidableEq, Repr, Inhabited

/-- {lit}`SourceRootId(pub u32)`; its {lit}`Default` is root {lit}`0`. -/
structure SourceRootId where
  val : Nat
deriving DecidableEq, Repr, Inhabited

/-- {lit}`CrateId(pub u32)`. -/
structure CrateId where
  val : Nat
deriving DecidableEq, Repr

/-- {lit}`RelativePathBuf`: a path relative to the root of its source root.
Listings compare paths as strings, so paths are taken in the normal form the
{lit}`relative_path` crate keeps them in: no leading separator and no
{lit}`.` or {lit}`..` component. -/
abbrev RelativePathBuf := String

/-- {lit}`ra_db::Canceled`: the revision advanced under a running query. -/
structure Canceled where
deriving DecidableEq, Repr

/-- {lit}`Cancelable<T> = Result<T, Canceled>`. -/
abbrev Cancelable (α : Type) := Except Canceled α

/-! ## Source roots and the crate graph -/

/-- {lit}`SourceRoot { files: FxHashMap<RelativePathBuf, FileId> }`. -/
structure SourceRoot where
  files : RelativePathBuf → Option FileId

/-- {lit}`SourceRoot::default()`: no files. -/
def SourceRoot.empty : SourceRoot :=
  ⟨fun _ => none⟩

/-- {lit}`files.insert(path, file_id)`. -/
def SourceRoot.insert (sr : SourceRoot) (path : RelativePathBuf) (fileId : FileId) :
    SourceRoot :=
  ⟨Function.update sr.files path (some fileId)⟩

/-- {lit}`files.remove(&path)`. -/
def SourceRoot.remove (sr : SourceRoot) (path : RelativePathBuf) : SourceRoot :=
  ⟨Function.update sr.files path none⟩

/-- Listings with the same files are equal. -/
@[ext]
theorem SourceRoot.ext {a b : SourceRoot} (h : ∀ p, a.files p = b.files p) : a = b := by
  cases a; cases b; simp only [SourceRoot.mk.injEq]; exact funext h

/-- The empty listing has no file. -/
@[simp]
theorem SourceRoot.empty_files (p : RelativePathBuf) : SourceRoot.empty.files p = none :=
  rfl

/-- Insertion lists the file at its path and keeps every other path. -/
@[simp]
theorem SourceRoot.insert_files (sr : SourceRoot) (path q : RelativePathBuf) (f : FileId) :
    (sr.insert path f).files q = if q = path then some f else sr.files q := by
  simp [SourceRoot.insert, Function.update_apply]

/-- Removal unlists the path and keeps every other path. -/
@[simp]
theorem SourceRoot.remove_files (sr : SourceRoot) (path q : RelativePathBuf) :
    (sr.remove path).files q = if q = path then none else sr.files q := by
  simp [SourceRoot.remove, Function.update_apply]

/-- Modelled from the spec: {lit}`CrateGraph` ({lit}`ra_db/src/input.rs` is not
among the sources) maps each crate to its root file; dependency edges are read
by nothing modelled here and are left out. -/
structure CrateGraph where
  arena : List (CrateId × FileId)

/-- Modelled from the spec: {lit}`crate_id_for_crate_root`, the crate whose root
file is {lean}`fileId`. -/
def CrateGraph.crateIdForCrateRoot (g : CrateGraph) (fileId : FileId) : Option CrateId :=
  (g.arena.find? fun c => c.2 = fileId).map Prod.fst

/-! ## The input store -/

/-- The inputs {lit}`apply_change` writes: {lit}`FileTextQuery`,
{lit}`FileRelativePathQuery`, {lit}`FileSourceRootQuery`, {lit}`SourceRootQuery`,
{lit}`LocalRootsQuery`, {lit}`LibraryRootsQuery` and {lit}`CrateGraphQuery`. -/
structure RootDatabase where
  fileText : FileId → String
  fileRelativePath : FileId → RelativePathBuf
  fileSourceRoot : FileId → SourceRootId
  sourceRoot : SourceRootId → SourceRoot
  localRoots : List SourceRootId
  libraryRoots : List SourceRootId
  crateGraph : CrateGraph

/-- {lit}`RootDatabase::default()`: every input at its default. -/
def RootDatabase.empty : RootDatabase where
  fileText := fun _ => ""
  fileRelativePath := fun _ => ""
  fileSourceRoot := fun _ => default
  sourceRoot := fun _ => SourceRoot.empty
  localRoots := []
  libraryRoots := []
  crateGraph := ⟨[]⟩

/-- The root {lean}`r` lists {lean}`f` at {lean}`p`. -/
def RootDatabase.Lists (db : RootDatabase) (r : SourceRootId) (p : RelativePathBuf)
    (f : FileId) : Prop :=
  (db.sourceRoot r).files p = some f

/-! ## Change batches -/

/-- Modelled from the spec: {lit}`AddFile`, a new file with its path and text. -/
structure AddFile where
  fileId : FileId
  path : RelativePathBuf
  text : String

/-- Modelled from the spec: {lit}`RemoveFile`, a deleted file and its path. -/
structure RemoveFile where
  fileId : FileId
  path : RelativePathBuf

/-- Modelled from the spec: {lit}`RootChange`, the files added to and removed
from one source root. -/
structure RootChange where
  added : List AddFile
  removed : List RemoveFile

/-- Modelled from the spec: {lit}`LibraryData`, a library root with its files;
the precomputed symbol index, written to {lit}`LibrarySymbolsQuery` and read by
nothing modelled here, is left out. -/
structure LibraryData where
  rootId : SourceRootId
  rootChange : RootChange

/-- Modelled from the spec: {lit}`roots_changed`, an
{lit}`FxHashMap<SourceRootId, RootChange>` in its iteration order. -/
structure RootsChanged where
  entries : List (SourceRootId × RootChange)
  keys_nodup : (entries.map Prod.fst).Nodup

/-- Modelled from the spec: {lit}`AnalysisChange`, one change batch. -/
structure AnalysisChange where
  newRoots : List (SourceRootId × Bool)
  rootsChanged : RootsChanged
  filesChanged : List (FileId × String)
  librariesAdded : List LibraryData
  crateGraph : Option CrateGraph

end RustAnalyzer
