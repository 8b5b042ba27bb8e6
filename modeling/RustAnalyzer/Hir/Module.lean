import RustAnalyzer.Hir.Db

/-!
# The module read API

The methods of {lit}`hir::Module` from {lit}`code_model_api.rs` and
{lit}`code_model_impl/module.rs`, in the {lit}`Cancelable` monad, each reading
the module tree of the module's source root.  The public methods only forward to
their {lit}`_impl`, so each is modelled once under the public name.

Main results:

- Theorems {lit}`Module.child_ofModuleId`, {lit}`Module.children_ofModuleId`,
  {lit}`Module.parent_ofModuleId`, {lit}`Module.name_ofModuleId`,
  {lit}`Module.declarationSource_ofModuleId`, {lit}`Module.crateRoot_ofModuleId`
  and {lit}`Module.krate_ofModuleId`: once the module tree query answers, each
  method reads the tree at the module's id.
-/

namespace RustAnalyzer

/-- {lit}`hir::Crate`. -/
structure Crate where
  crateId : CrateId
deriving DecidableEq, Repr

/-- {lit}`ModuleSource`: a module defined by a whole file or by an inline
{lit}`mod` item. -/
inductive ModuleSource
  | sourceFile
  | module (item : SourceFileItemId)
deriving DecidableEq, Repr

namespace Module

/-- The handle {lit}`from_module_id` interns for module {lean}`moduleId` of
{lean}`moduleTree`. -/
def ofModuleId (sourceRootId : SourceRootId) (moduleTree : ModuleTree) (moduleId : ModuleId) :
    Module :=
  ⟨(DefLoc.mk .module sourceRootId moduleId (moduleId.source moduleTree)).id⟩

/-- {lit}`Module::from_module_id`. -/
def fromModuleId (db : HirDatabase) (sourceRootId : SourceRootId) (moduleId : ModuleId) :
    Cancelable Module := do
  let moduleTree ← db.moduleTree sourceRootId
  pure (ofModuleId sourceRootId moduleTree moduleId)

/-- {lit}`Module::name`: the name of the parent link, {lean}`none` for a crate root. -/
def name (self : Module) (db : HirDatabase) : Cancelable (Option Name) := do
  let loc := self.defId.loc
  let moduleTree ← db.moduleTree loc.sourceRootId
  match loc.moduleId.parentLink moduleTree with
  | none => pure none
  | some link => pure (some (link.name moduleTree))

/-- {lit}`Module::definition_source`: the file and the node defining the module;
{lit}`db.file_item` is modelled from the spec as the whole file for a source
item without item index. -/
def definitionSource (self : Module) : Cancelable (FileId × ModuleSource) :=
  let loc := self.defId.loc
  pure (loc.sourceItemId.fileId,
    match loc.sourceItemId.itemId with
    | none => .sourceFile
    | some item => .module item)

/-- {lit}`Module::declaration_source`: the {lit}`mod` item declaring the module
and its file, {lean}`none` for a crate root. -/
def declarationSource (self : Module) (db : HirDatabase) :
    Cancelable (Option (FileId × AstModule)) := do
  let loc := self.defId.loc
  let moduleTree ← db.moduleTree loc.sourceRootId
  match loc.moduleId.parentLink moduleTree with
  | none => pure none
  | some link =>
    let fileId := ((link.owner moduleTree).source moduleTree).fileId
    pure (some (fileId, link.source moduleTree))

/-- {lit}`Module::crate_root`. -/
def crateRoot (self : Module) (db : HirDatabase) : Cancelable Module := do
  let loc := self.defId.loc
  let moduleTree ← db.moduleTree loc.sourceRootId
  fromModuleId db loc.sourceRootId (loc.moduleId.crateRoot moduleTree)

/-- {lit}`Module::krate`: the crate whose root file is the crate root's file. -/
def krate (self : Module) (db : HirDatabase) : Cancelable (Option Crate) := do
  let root ← self.crateRoot db
  let fileId := root.defId.loc.sourceItemId.fileId
  match db.inputs.crateGraph.crateIdForCrateRoot fileId with
  | none => pure none
  | some crateId => pure (some ⟨crateId⟩)

/-- {lit}`Module::child`: the child module declared under {lean}`name`. -/
def child (self : Module) (db : HirDatabase) (name : Name) : Cancelable (Option Module) := do
  let loc := self.defId.loc
  let moduleTree ← db.moduleTree loc.sourceRootId
  match loc.moduleId.child moduleTree name with
  | none => pure none
  | some childId => some <$> fromModuleId db loc.sourceRootId childId

/-- {lit}`Module::children`: every child module, in declaration order; the
first cancelled {lit}`from_module_id` cancels the whole collection. -/
def children (self : Module) (db : HirDatabase) : Cancelable (List Module) := do
  let loc := self.defId.loc
  let moduleTree ← db.moduleTree loc.sourceRootId
  (loc.moduleId.children moduleTree).mapM fun (_, moduleId) =>
    fromModuleId db loc.sourceRootId moduleId

/-- {lit}`Module::parent`. -/
def parent (self : Module) (db : HirDatabase) : Cancelable (Option Module) := do
  let loc := self.defId.loc
  let moduleTree ← db.moduleTree loc.sourceRootId
  match loc.moduleId.parent moduleTree with
  | none => pure none
  | some parentId => some <$> fromModuleId db loc.sourceRootId parentId

/-- The {lit}`while let Some(next) = curr.parent(db)?` loop of
{lit}`path_to_root`, run for at most {lean}`fuel` iterations; {lean}`none` means
the fuel ran out. -/
def pathToRootLoop (db : HirDatabase) : Nat → Module → List Module →
    Cancelable (Option (List Module))
  | 0, _, _ => pure none
  | fuel + 1, curr, res => do
    match ← curr.parent db with
    | some next => pathToRootLoop db fuel next (res ++ [next])
    | none => pure (some res)

/-- {lit}`Module::path_to_root`: the module, its parent, and so on. -/
def pathToRoot (self : Module) (db : HirDatabase) (fuel : Nat) :
    Cancelable (Option (List Module)) :=
  pathToRootLoop db fuel self [self]

/-- {lit}`Module::scope`: the module's entry of the item map. -/
def scope (self : Module) (db : HirDatabase) : Cancelable ModuleScope := do
  let loc := self.defId.loc
  let itemMap ← db.itemMap loc.sourceRootId
  pure (itemMap.perModule loc.moduleId)

/-- {lit}`Module::problems`: the problems of the module's child links. -/
def problems (self : Module) (db : HirDatabase) : Cancelable (List (AstName × Problem)) := do
  let loc := self.defId.loc
  let moduleTree ← db.moduleTree loc.sourceRootId
  pure (loc.moduleId.problems moduleTree)

/-! ## Spec lemmas -/

section Spec

variable {db : HirDatabase} {sr : SourceRootId} {tree : ModuleTree}

/-- The handle of a module records the module, its source root and its source. -/
@[simp]
theorem ofModuleId_loc (id : ModuleId) :
    (ofModuleId sr tree id).defId.loc = ⟨.module, sr, id, id.source tree⟩ :=
  rfl

/-- Distinct modules of a tree have distinct handles. -/
theorem ofModuleId_injective : Function.Injective (ofModuleId sr tree) := by
  intro a b h
  simp only [ofModuleId, DefLoc.id, Module.mk.injEq, DefId.mk.injEq, DefLoc.mk.injEq] at h
  exact h.2.2.1

/-- Once the module tree answers, {lit}`from_module_id` gives the module's handle. -/
theorem fromModuleId_eq (htree : db.moduleTree sr = .ok tree) (id : ModuleId) :
    fromModuleId db sr id = .ok (ofModuleId sr tree id) := by
  simp [fromModuleId, htree, bind, Except.bind, pure, Except.pure]

/-- Once the module tree answers, {lit}`Module::child` is the tree's child. -/
theorem child_ofModuleId (htree : db.moduleTree sr = .ok tree) (id : ModuleId) (name : Name) :
    (ofModuleId sr tree id).child db name = .ok ((id.child tree name).map (ofModuleId sr tree)) := by
  simp only [child, ofModuleId_loc, htree, bind, Except.bind]
  cases id.child tree name <;> simp [fromModuleId_eq htree, pure, Except.pure, Functor.map, Except.map]

/-- A {lit}`collect` of queries that all answer is the list of their answers. -/
theorem mapM_eq_ok {α β : Type} {f : α → Cancelable β} {g : α → β} (hf : ∀ a, f a = .ok (g a)) :
    ∀ l : List α, l.mapM f = .ok (l.map g)
  | [] => rfl
  | a :: l => by rw [List.mapM_cons, hf, mapM_eq_ok hf l]; rfl

/-- Once the module tree answers, {lit}`Module::children` are the tree's children. -/
theorem children_ofModuleId (htree : db.moduleTree sr = .ok tree) (id : ModuleId) :
    (ofModuleId sr tree id).children db = .ok ((id.children tree).map (ofModuleId sr tree ·.2)) := by
  simp only [children, ofModuleId_loc, htree, bind, Except.bind]
  exact mapM_eq_ok (fun _ => fromModuleId_eq htree _) _

/-- Once the module tree answers, {lit}`Module::parent` is the tree's parent. -/
theorem parent_ofModuleId (htree : db.moduleTree sr = .ok tree) (id : ModuleId) :
    (ofModuleId sr tree id).parent db = .ok ((id.parent tree).map (ofModuleId sr tree)) := by
  simp only [parent, ofModuleId_loc, htree, bind, Except.bind]
  cases id.parent tree <;> simp [fromModuleId_eq htree, pure, Except.pure, Functor.map, Except.map]

/-- Once the module tree answers, {lit}`Module::name` is the parent link's name. -/
theorem name_ofModuleId (htree : db.moduleTree sr = .ok tree) (id : ModuleId) :
    (ofModuleId sr tree id).name db = .ok ((id.parentLink tree).map (·.name tree)) := by
  simp only [name, ofModuleId_loc, htree, bind, Except.bind]
  cases id.parentLink tree <;> rfl

/-- Once the module tree answers, {lit}`Module::declaration_source` is the
parent link's {lit}`mod` item in its owner's file. -/
theorem declarationSource_ofModuleId (htree : db.moduleTree sr = .ok tree) (id : ModuleId) :
    (ofModuleId sr tree id).declarationSource db =
      .ok ((id.parentLink tree).map fun l => (((l.owner tree).source tree).fileId, l.source tree)) := by
  simp only [declarationSource, ofModuleId_loc, htree, bind, Except.bind]
  cases id.parentLink tree <;> rfl

/-- Once the module tree answers, {lit}`Module::crate_root` is the tree's crate root. -/
theorem crateRoot_ofModuleId (htree : db.moduleTree sr = .ok tree) (id : ModuleId) :
    (ofModuleId sr tree id).crateRoot db = .ok (ofModuleId sr tree (id.crateRoot tree)) := by
  simp only [crateRoot, ofModuleId_loc, htree, bind, Except.bind]
  exact fromModuleId_eq htree _

/-- Once the module tree answers, {lit}`Module::krate` is the crate the graph roots
at the crate root's file. -/
theorem krate_ofModuleId (htree : db.moduleTree sr = .ok tree) (id : ModuleId) :
    (ofModuleId sr tree id).krate db =
      .ok ((db.inputs.crateGraph.crateIdForCrateRoot
        ((id.crateRoot tree).source tree).fileId).map Crate.mk) := by
  simp only [krate, crateRoot_ofModuleId htree, bind, Except.bind, ofModuleId_loc]
  cases db.inputs.crateGraph.crateIdForCrateRoot ((id.crateRoot tree).source tree).fileId <;> rfl

end Spec

end Module

end RustAnalyzer
