import RustAnalyzer.Hir.Cancel

/-!
# Module-problem diagnostics

{lit}`RootDatabase::diagnostics` converts the syntax diagnostics of a file,
turning each local fix into a change of that file with
{lit}`SourceChange::from_local_edit`, and appends one diagnostic per problem of
the module {lit}`module_from_file_id` gives for the file, with a fix that
creates the missing module file or moves the file into its own directory first.
The syntax diagnostics come from {lit}`ra_ide_api_light`, which is not among the
sources, so they are taken as given.

Main results:

- Theorem {lit}`diagnostics_fix_localTo`: every fix offered for a file edits
  the text of that file alone and the file system inside its source root.
- Theorem {lit}`diagnostics_misses_nested_problem`: a problem of an inline
  module nested in the file is not reported.
- Theorem {lit}`diagnostics_cancelled_or_eq`: on a snapshot with cancelled
  queries the diagnostics are cancelled or those of the full snapshot, never a
  part of them.
-/

namespace RustAnalyzer

/-- {lit}`Severity` of {lit}`ra_ide_api_light`. -/
inductive Severity
  | error
  | weakWarning
deriving DecidableEq, Repr

/-- {lit}`FilePosition`. -/
structure FilePosition where
  fileId : FileId
  offset : Nat
deriving DecidableEq, Repr

/-- {lit}`AtomTextEdit`: replace a range by a text. -/
structure AtomTextEdit where
  delete : TextRange
  insert : String
deriving DecidableEq, Repr

/-- {lit}`SourceFileEdit`. -/
structure SourceFileEdit where
  fileId : FileId
  edit : List AtomTextEdit
deriving DecidableEq, Repr

/-- {lit}`FileSystemEdit`. -/
inductive FileSystemEdit
  | createFile (sourceRoot : SourceRootId) (path : RelativePathBuf)
  | moveFile (src : FileId) (dstSourceRoot : SourceRootId) (dstPath : RelativePathBuf)
deriving DecidableEq, Repr

/-- {lit}`SourceChange`. -/
structure SourceChange where
  label : String
  sourceFileEdits : List SourceFileEdit
  fileSystemEdits : List FileSystemEdit
  cursorPosition : Option FilePosition
deriving DecidableEq, Repr

/-- {lit}`Diagnostic`. -/
structure Diagnostic where
  range : TextRange
  message : String
  severity : Severity
  fix : Option SourceChange
deriving DecidableEq, Repr

/-- {lit}`LocalEdit` of {lit}`ra_ide_api_light`: a labelled edit of one file,
with an optional cursor offset in it. -/
structure LocalEdit where
  label : String
  edit : List AtomTextEdit
  cursorPosition : Option Nat
deriving DecidableEq, Repr

/-- A diagnostic of {lit}`ra_ide_api_light::diagnostics`, whose type is not among
the sources: a range, a message, a severity and an optional local fix. -/
structure LightDiagnostic where
  range : TextRange
  msg : String
  severity : Severity
  fix : Option LocalEdit
deriving DecidableEq, Repr

/-- {lit}`SourceChange::from_local_edit`: the edit applied to {lean}`fileId`,
with no file-system edit. -/
def SourceChange.fromLocalEdit (fileId : FileId) (edit : LocalEdit) : SourceChange :=
  let fileEdit : SourceFileEdit := ⟨fileId, edit.edit⟩
  ⟨edit.label, [fileEdit], [], edit.cursorPosition.map fun offset => ⟨fileId, offset⟩⟩

/-- The conversion of a syntax diagnostic at the start of {lit}`diagnostics`. -/
def syntaxDiagnostic (fileId : FileId) (d : LightDiagnostic) : Diagnostic :=
  ⟨d.range, d.msg, d.severity, d.fix.map (SourceChange.fromLocalEdit fileId)⟩

/-- {lit}`RelativePath::join` of the {lit}`relative_path` crate, which is not
among the sources: the path's leading separator is dropped and one separator
put after a non-empty base that lacks it. -/
def RelativePathBuf.join (base path : RelativePathBuf) : RelativePathBuf :=
  let other := if path.startsWith "/" then path.drop 1 else path
  if !base.isEmpty && !base.endsWith "/" then base ++ "/" ++ other else base ++ other

/-- The body of the loop of {lit}`diagnostics`: the diagnostic of a problem of
a child link whose name node is {lean}`nameNode`. -/
def problemDiagnostic (db : HirDatabase) (fileId : FileId) (nameNode : AstName) (problem : Problem) :
    Diagnostic :=
  let sourceRoot := db.inputs.fileSourceRoot fileId
  match problem with
  | .unresolvedModule candidate =>
    let createFile := FileSystemEdit.createFile sourceRoot candidate
    let fix : SourceChange := ⟨"create module", [], [createFile], none⟩
    ⟨nameNode.range, "unresolved module", .error, some fix⟩
  | .notDirOwner moveTo candidate =>
    let moveFile := FileSystemEdit.moveFile fileId sourceRoot moveTo
    let createFile := FileSystemEdit.createFile sourceRoot (moveTo.join candidate)
    let fix : SourceChange := ⟨"move file and create module", [], [moveFile, createFile], none⟩
    ⟨nameNode.range, "can\x27t declare module at this location", .error, some fix⟩

/-- {lit}`RootDatabase::diagnostics`, given the diagnostics
{lit}`ra_ide_api_light::diagnostics` finds in the file's syntax. -/
def diagnostics (db : HirDatabase) (lightDiagnostics : List LightDiagnostic) (fileId : FileId) :
    Cancelable (List Diagnostic) := do
  let res := lightDiagnostics.map (syntaxDiagnostic fileId)
  match ← db.moduleFromFileId fileId with
  | none => pure res
  | some m =>
    let problems ← m.problems db
    pure (res ++ problems.map fun (nameNode, problem) => problemDiagnostic db fileId nameNode problem)

/-! ## Every fix stays in the file's source root -/

/-- A file-system edit inside source root {lean}`sourceRoot` that moves, if
anything, the file {lean}`fileId`. -/
def FileSystemEdit.LocalTo (fileId : FileId) (sourceRoot : SourceRootId) : FileSystemEdit → Prop
  | .createFile root _ => root = sourceRoot
  | .moveFile src dstSourceRoot _ => src = fileId ∧ dstSourceRoot = sourceRoot

/-- A fix that edits the text of {lean}`fileId` alone, edits the file system only
inside {lean}`sourceRoot`, and puts the cursor, if anywhere, in {lean}`fileId`. -/
def SourceChange.LocalTo (fix : SourceChange) (fileId : FileId) (sourceRoot : SourceRootId) :
    Prop :=
  (∀ e ∈ fix.sourceFileEdits, e.fileId = fileId) ∧
    (∀ e ∈ fix.fileSystemEdits, e.LocalTo fileId sourceRoot) ∧
    ∀ pos, fix.cursorPosition = some pos → pos.fileId = fileId

/-- A converted local edit changes its own file alone. -/
theorem fromLocalEdit_localTo (fileId : FileId) (sourceRoot : SourceRootId) (edit : LocalEdit) :
    (SourceChange.fromLocalEdit fileId edit).LocalTo fileId sourceRoot := by
  refine ⟨by simp [SourceChange.fromLocalEdit], by simp [SourceChange.fromLocalEdit], fun pos h => ?_⟩
  obtain ⟨_, -, rfl⟩ := Option.map_eq_some'.1 h
  rfl

/-- A problem's fix stays in the file's source root and moves the file alone. -/
theorem problemDiagnostic_localTo (db : HirDatabase) (fileId : FileId) (nameNode : AstName)
    (problem : Problem) {fix : SourceChange}
    (h : (problemDiagnostic db fileId nameNode problem).fix = some fix) :
    fix.LocalTo fileId (db.inputs.fileSourceRoot fileId) := by
  cases problem <;> cases h <;> simp [SourceChange.LocalTo, FileSystemEdit.LocalTo]

/-- Whatever {lit}`diagnostics` answers is the converted syntax diagnostics
followed by the diagnostics of some problems. -/
theorem eq_of_diagnostics_eq_ok {db : HirDatabase} {lightDiagnostics : List LightDiagnostic}
    {fileId : FileId} {ds : List Diagnostic} (h : diagnostics db lightDiagnostics fileId = .ok ds) :
    ∃ problems : List (AstName × Problem), ds = lightDiagnostics.map (syntaxDiagnostic fileId) ++
      problems.map fun p => problemDiagnostic db fileId p.1 p.2 := by
  unfold diagnostics at h
  cases hm : db.moduleFromFileId fileId with
  | error e => simp [hm, bind, Except.bind] at h
  | ok m =>
    cases m with
    | none => exact ⟨[], by simpa [hm, bind, Except.bind, pure, Except.pure, eq_comm] using h⟩
    | some m =>
      cases hp : m.problems db with
      | error e => simp [hm, hp, bind, Except.bind] at h
      | ok problems =>
        exact ⟨problems, by simpa [hm, hp, bind, Except.bind, pure, Except.pure, eq_comm] using h⟩

/-- Every fix {lit}`diagnostics` offers for a file edits the text of that file
alone and the file system only inside the file's source root. -/
theorem diagnostics_fix_localTo {db : HirDatabase} {lightDiagnostics : List LightDiagnostic}
    {fileId : FileId} {ds : List Diagnostic} (h : diagnostics db lightDiagnostics fileId = .ok ds) :
    ∀ d ∈ ds, ∀ fix, d.fix = some fix → fix.LocalTo fileId (db.inputs.fileSourceRoot fileId) := by
  obtain ⟨problems, rfl⟩ := eq_of_diagnostics_eq_ok h
  intro d hd fix hfix
  rcases List.mem_append.1 hd with hd | hd
  · obtain ⟨l, -, rfl⟩ := List.mem_map.1 hd
    obtain ⟨edit, -, rfl⟩ := Option.map_eq_some'.1 hfix
    exact fromLocalEdit_localTo _ _ _
  · obtain ⟨p, -, rfl⟩ := List.mem_map.1 hd
    exact problemDiagnostic_localTo db fileId p.1 p.2 hfix

/-! ## Cancellation is all or nothing -/

section Cancel

variable {db db' : HirDatabase} (hc : db.CancelledFrom db')
include hc

/-- A problem's diagnostic reads only the inputs, which cancellation keeps. -/
theorem problemDiagnostic_cancelledFrom (fileId : FileId) (nameNode : AstName) (problem : Problem) :
    problemDiagnostic db fileId nameNode problem = problemDiagnostic db' fileId nameNode problem := by
  unfold problemDiagnostic
  rw [hc.inputs_eq]

/-- {lit}`diagnostics` answers only as on the full snapshot. -/
theorem diagnostics_answersAs (lightDiagnostics : List LightDiagnostic) (fileId : FileId) :
    AnswersAs (diagnostics db lightDiagnostics fileId) (diagnostics db' lightDiagnostics fileId) := by
  refine (hc.moduleFromFileId fileId).bind fun m => ?_
  cases m with
  | none => exact AnswersAs.refl _
  | some m =>
    refine (Module.problems_answersAs hc m).bind fun problems => ?_
    simp only [problemDiagnostic_cancelledFrom hc]
    exact AnswersAs.refl _

/-- Unlike {lit}`runnables`, which drops what a cancelled query hides,
{lit}`diagnostics` passes every cancellation on: on a snapshot with cancelled
queries it is cancelled, or it answers the full snapshot's diagnostics. -/
theorem diagnostics_cancelled_or_eq (lightDiagnostics : List LightDiagnostic) (fileId : FileId) :
    diagnostics db lightDiagnostics fileId = .error ⟨⟩ ∨
      diagnostics db lightDiagnostics fileId = diagnostics db' lightDiagnostics fileId := by
  cases h : diagnostics db lightDiagnostics fileId with
  | error => exact .inl rfl
  | ok ds => exact .inr (diagnostics_answersAs hc _ _ ds h).symm

end Cancel

/-- With the item maps cancelled, the diagnostics of {lit}`lib.rs` are still
those of the full snapshot, since they read no item map. -/
theorem diagnostics_itemsCanceled :
    itemsCanceledDb.CancelledFrom nestedDb ∧
      (diagnostics itemsCanceledDb [] ⟨0⟩ = .error ⟨⟩ ∨
        diagnostics itemsCanceledDb [] ⟨0⟩ = diagnostics nestedDb [] ⟨0⟩) :=
  ⟨itemsCanceledDb_cancelledFrom, diagnostics_cancelled_or_eq itemsCanceledDb_cancelledFrom [] ⟨0⟩⟩

/-- A weak warning with a local fix, as {lit}`ra_ide_api_light` gives for the
braces of {lit}`use a::{b};`. -/
def bracesDiagnostic : LightDiagnostic :=
  ⟨⟨7, 10⟩, "Unnecessary braces in use statement", .weakWarning,
    some ⟨"Remove unnecessary braces", [⟨⟨7, 10⟩, "b"⟩], none⟩⟩

/-- The fix of the braces warning in {lit}`lib.rs` edits {lit}`lib.rs` alone. -/
theorem diagnostics_lib_braces :
    diagnostics nestedDb [bracesDiagnostic] ⟨0⟩ = .ok [syntaxDiagnostic ⟨0⟩ bracesDiagnostic] ∧
      ∀ d ∈ [syntaxDiagnostic ⟨0⟩ bracesDiagnostic], ∀ fix, d.fix = some fix →
        fix.LocalTo ⟨0⟩ (nestedDb.inputs.fileSourceRoot ⟨0⟩) :=
  ⟨rfl, @diagnostics_fix_localTo nestedDb [bracesDiagnostic] ⟨0⟩ _ rfl⟩

/-- {lit}`lib.rs` gets no diagnostic, though {lit}`foo::bar`, an inline module
defined in it, has the unresolved {lit}`mod baz;`. -/
theorem diagnostics_misses_nested_problem :
    diagnostics nestedDb [] ⟨0⟩ = .ok [] ∧
      (Module.ofModuleId ⟨0⟩ nestedTree ⟨2⟩).definitionSource = .ok (⟨0⟩, .module ⟨1⟩) ∧
      (Module.ofModuleId ⟨0⟩ nestedTree ⟨2⟩).problems nestedDb =
        .ok [(bazDecl.name, .unresolvedModule "foo/bar/baz.rs")] :=
  ⟨rfl, rfl, rfl⟩

end RustAnalyzer
