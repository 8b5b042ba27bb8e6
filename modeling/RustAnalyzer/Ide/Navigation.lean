import RustAnalyzer.Hir.Cancel

/-!
# The crate and the navigation target of a module

Two IDE lookups over the {lit}`hir::Module` read API.  {lit}`crate_for` finds the
module of a file with {lit}`module_from_file_id` and returns the id of its
crate, as a list that holds at most one crate.
{lit}`NavigationTarget::from_module` turns a module into the place the editor
jumps to: the node {lit}`definition_source` gives, named by {lit}`Module::name`
or by the empty name for a crate root.  {lit}`db.file_item`, which gives that
node, is not among the sources, so the range of each file item is a parameter.
Both pass every cancellation on with {lit}`?`.

Main results:

- Theorem {lit}`crateFor_ofModuleId`: the crate of a file is the crate the graph
  roots at the file of its module's crate root.
- Theorem {lit}`NavigationTarget.fromModule_ofModuleId`: the target of a module
  spans its defining node, in its definition file, under its declared name.
- Theorems {lit}`crateFor_answersAs` and
  {lit}`NavigationTarget.fromModule_answersAs`: on a snapshot with cancelled
  queries both answer only as on the full snapshot.
-/

namespace RustAnalyzer

/-! ## {lit}`crate_for` -/

/-- {lit}`RootDatabase::crate_for`. -/
def crateFor (db : HirDatabase) (fileId : FileId) : Cancelable (List CrateId) := do
  match ← db.moduleFromFileId fileId with
  | none => pure []
  | some module =>
    match ← module.krate db with
    | none => pure []
    | some krate => pure [krate.crateId]

/-- Once {lit}`module_from_file_id` names a module of an answered tree, the crate
of the file is the one the crate graph roots at the file of the module's crate
root, if any. -/
theorem crateFor_ofModuleId {db : HirDatabase} {sr : SourceRootId} {tree : ModuleTree}
    (htree : db.moduleTree sr = .ok tree) {fileId : FileId} {id : ModuleId}
    (hfile : db.moduleFromFileId fileId = .ok (some (Module.ofModuleId sr tree id))) :
    crateFor db fileId =
      .ok (db.inputs.crateGraph.crateIdForCrateRoot ((id.crateRoot tree).source tree).fileId).toList := by
  simp only [crateFor, hfile, Module.krate_ofModuleId htree, bind, Except.bind]
  cases db.inputs.crateGraph.crateIdForCrateRoot ((id.crateRoot tree).source tree).fileId <;> rfl

/-- {lit}`lib.rs` belongs to crate {lit}`0`, the crate rooted at it. -/
example : crateFor nestedDb ⟨0⟩ = .ok [⟨0⟩] :=
  @crateFor_ofModuleId nestedDb ⟨0⟩ nestedTree rfl ⟨0⟩ ⟨0⟩ rfl

/-! ## {lit}`NavigationTarget::from_module` -/

/-- {lit}`SyntaxKind`, as far as {lit}`from_module` tells nodes apart: a whole
file or a {lit}`mod` item. -/
inductive SyntaxKind
  | sourceFile
  | module
deriving DecidableEq, Repr

/-- {lit}`NavigationTarget`: a place in the editor to jump to. -/
structure NavigationTarget where
  fileId : FileId
  name : String
  kind : SyntaxKind
  fullRange : TextRange
  focusRange : Option TextRange
deriving DecidableEq, Repr

namespace NavigationTarget

/-- {lit}`NavigationTarget::from_syntax`, given the kind and range of the node. -/
def fromSyntax (fileId : FileId) (name : String) (focusRange : Option TextRange)
    (kind : SyntaxKind) (range : TextRange) : NavigationTarget :=
  ⟨fileId, name, kind, range, focusRange⟩

/-- {lit}`NavigationTarget::from_module`; {lean}`fileItemRange` is the range of
the node {lit}`db.file_item` gives for each source item. -/
def fromModule (db : HirDatabase) (fileItemRange : SourceItemId → TextRange) (module : Module) :
    Cancelable NavigationTarget := do
  let (fileId, source) ← module.definitionSource
  let name := (← module.name db).getD ""
  match source with
  | .sourceFile => pure (fromSyntax fileId name none .sourceFile (fileItemRange ⟨fileId, none⟩))
  | .module item => pure (fromSyntax fileId name none .module (fileItemRange ⟨fileId, some item⟩))

/-- Once the module tree answers, the target of a module spans the node of its
source in its definition file, with no focus range, under the name of its parent
link, or the empty name for a crate root. -/
theorem fromModule_ofModuleId {db : HirDatabase} {sr : SourceRootId} {tree : ModuleTree}
    (htree : db.moduleTree sr = .ok tree) (fileItemRange : SourceItemId → TextRange)
    (id : ModuleId) :
    fromModule db fileItemRange (Module.ofModuleId sr tree id) =
      .ok ⟨(id.source tree).fileId, ((id.parentLink tree).map (·.name tree)).getD "",
        if (id.source tree).itemId = none then .sourceFile else .module,
        fileItemRange (id.source tree), none⟩ := by
  simp only [fromModule, Module.definitionSource, Module.name_ofModuleId htree,
    Module.ofModuleId_loc, bind, Except.bind, pure, Except.pure]
  generalize id.source tree = source
  obtain ⟨fileId, _ | item⟩ := source <;> rfl

/-- The target of {lit}`foo::bar` is its {lit}`mod` item in {lit}`lib.rs`, named
{lit}`bar`. -/
example :
    fromModule nestedDb (fun _ => barDecl.range) (Module.ofModuleId ⟨0⟩ nestedTree ⟨2⟩) =
      .ok ⟨⟨0⟩, "bar", .module, barDecl.range, none⟩ :=
  fromModule_ofModuleId rfl _ _

end NavigationTarget

/-! ## Cancellation -/

section Cancel

variable {db db' : HirDatabase} (hc : db.CancelledFrom db')
include hc

/-- {lit}`crate_for` answers only as on the full snapshot. -/
theorem crateFor_answersAs (fileId : FileId) : AnswersAs (crateFor db fileId) (crateFor db' fileId) := by
  refine (hc.moduleFromFileId fileId).bind fun m => ?_
  cases m with
  | none => exact AnswersAs.refl _
  | some m =>
    refine (Module.krate_answersAs hc m).bind fun k => ?_
    cases k <;> exact AnswersAs.refl _

/-- {lit}`NavigationTarget::from_module` answers only as on the full snapshot. -/
theorem NavigationTarget.fromModule_answersAs (fileItemRange : SourceItemId → TextRange)
    (module : Module) :
    AnswersAs (NavigationTarget.fromModule db fileItemRange module)
      (NavigationTarget.fromModule db' fileItemRange module) :=
  (AnswersAs.refl module.definitionSource).bind fun _ =>
    (Module.name_answersAs hc module).bind fun _ => AnswersAs.refl _

end Cancel

end RustAnalyzer
