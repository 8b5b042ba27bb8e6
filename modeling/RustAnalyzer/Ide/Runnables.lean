import RustAnalyzer.Hir.Cancel

/-!
# Runnables

{lit}`runnables` walks the syntax tree of a file and turns each {lit}`main`,
{lit}`#[test]` and {lit}`#[bench]` function into a runnable, and each inline
module with a {lit}`#[test]` function into a {lit}`TestMod` named by its path
from the crate root.  {lit}`runnable_mod` turns each cancelled query it issues
into a missing runnable or a missing path segment with {lit}`.ok()`, so
{lit}`runnables` itself never reports cancellation.

{lit}`path_to_root` is modelled with fuel; a {lit}`runnable_mod` that runs out
of it yields nothing, and on an acyclic module tree enough fuel always
suffices.

Main results:

- Theorem {lit}`runnables_ok`: {lit}`runnables` answers with a list on every
  database snapshot, cancelled queries included.
- Theorem {lit}`runnableMod_eq_some_iff`: when {lit}`runnable_mod` yields a
  runnable, and which.
- Theorem {lit}`runnables_sublist_of_cancelledFrom`: on a snapshot with
  cancelled queries, {lit}`runnables` yields a sublist of the runnables of the
  full snapshot: cancellation drops entries, never alters one.
- Theorem {lit}`runnableMod_testMod`: for an inline module with a
  {lit}`#[test]` function and no query cancelled, the {lit}`TestMod` path is the
  declared names of the modules below the crate root down to the module, one per
  module, joined with {lit}`::`.
-/

namespace RustAnalyzer

/-- {lit}`RunnableKind`. -/
inductive RunnableKind
  | test (name : String)
  | testMod (path : String)
  | bench (name : String)
  | bin
deriving DecidableEq, Repr

/-- {lit}`Runnable`: a range of the file and what runs there. -/
structure Runnable where
  range : TextRange
  kind : RunnableKind
deriving DecidableEq, Repr

/-- The {lit}`ast::ModuleItemKind::FnDef` filter of {lit}`runnable_mod`. -/
def ModuleItem.fnDef? : ModuleItem → Option FnDef
  | .fnDef f => some f
  | .other _ => none

/-- {lit}`runnable_fn`. -/
def runnableFn (fnDef : FnDef) : Option Runnable := do
  let name := (← fnDef.name).text
  let kind ←
    if name = "main" then some RunnableKind.bin
    else if fnDef.hasAtomAttr "test" then some (.test name)
    else if fnDef.hasAtomAttr "bench" then some (.bench name)
    else none
  pure ⟨fnDef.range, kind⟩

/-- {lit}`runnable_mod`, with {lean}`fuel` for {lit}`path_to_root`. -/
def runnableMod (db : HirDatabase) (fuel : Nat) (fileId : FileId) (module : AstModule) :
    Option Runnable := do
  let items ← module.itemList
  let hasTestFunction := (items.filterMap ModuleItem.fnDef?).any (·.hasAtomAttr "test")
  if !hasTestFunction then
    none
  let range := module.range
  let module ← (db.moduleFromChildNode fileId module).toOption.join
  let ancestors ← (module.pathToRoot db fuel).toOption.join
  let path := "::".intercalate
    ((ancestors.reverse.filterMap fun it => (it.name db).toOption).filterMap id)
  pure ⟨range, .testMod path⟩

/-- {lit}`runnable`: dispatch on the kind of a node of the walk. -/
def runnable (db : HirDatabase) (fuel : Nat) (fileId : FileId) : SyntaxNode → Option Runnable
  | .fnDef fnDef => runnableFn fnDef
  | .module m => runnableMod db fuel fileId m
  | .other _ => none

/-- {lit}`runnables`. -/
def runnables (db : HirDatabase) (fuel : Nat) (fileId : FileId) : Cancelable (List Runnable) :=
  let sourceFile := db.sourceFile fileId
  let res := sourceFile.descendants.filterMap (runnable db fuel fileId)
  .ok res

/-- {lit}`runnables` answers on every snapshot: each cancellation inside it is
absorbed by {lit}`.ok()`. -/
theorem runnables_ok (db : HirDatabase) (fuel : Nat) (fileId : FileId) :
    runnables db fuel fileId = .ok ((db.sourceFile fileId).descendants.filterMap
      (runnable db fuel fileId)) :=
  rfl

/-- The crate of {lit}`lib.rs` with the child-module query cancelled. -/
def canceledDb : HirDatabase :=
  { nestedDb with moduleFromChildNode := fun _ _ => .error ⟨⟩ }

/-- With the child-module query cancelled, {lit}`runnables` still answers, and
its list lacks the {lit}`TestMod` of {lit}`foo::bar` that the snapshot without
cancellation yields. -/
theorem runnables_canceled_drops_testMod :
    canceledDb.moduleFromChildNode ⟨0⟩ barDecl = .error ⟨⟩ ∧
      runnables canceledDb 3 ⟨0⟩ = .ok [⟨⟨20, 37⟩, .test "t"⟩] ∧
      runnables nestedDb 3 ⟨0⟩ = .ok [⟨⟨10, 48⟩, .testMod "foo::bar"⟩, ⟨⟨20, 37⟩, .test "t"⟩] :=
  ⟨rfl, rfl, rfl⟩

/-! ## The path of a test module -/

/-- Where every element of a list is kept, {lean}`List.filterMap` pairs each
element with its image. -/
theorem forall₂_filterMap {α β : Type} {f : α → Option β} :
    ∀ {l : List α}, (∀ x ∈ l, (f x).isSome) → List.Forall₂ (fun x y => f x = some y) l (l.filterMap f)
  | [], _ => .nil
  | x :: l, h => by
    obtain ⟨y, hy⟩ := Option.isSome_iff_exists.1 (h x (List.mem_cons_self _ _))
    rw [List.filterMap_cons_some hy]
    exact .cons hy (forall₂_filterMap fun z hz => h z (List.mem_cons_of_mem _ hz))

section Spec

variable {db : HirDatabase} {sr : SourceRootId} {tree : ModuleTree}

/-- The path {lit}`runnable_mod` joins: the names of the reversed ancestor chain,
with the crate root's missing name dropped. -/
theorem testModPath_eq (htree : db.moduleTree sr = .ok tree) {m : ModuleId}
    {chain : List ModuleId} (h : tree.ParentChain m chain) :
    ((chain.map (Module.ofModuleId sr tree)).reverse.filterMap
        fun it => (it.name db).toOption).filterMap id =
      chain.reverse.tail.filterMap fun x => (x.parentLink tree).map (·.name tree) := by
  obtain ⟨r, hr, hnone⟩ := h.getLast_parent
  have hname : (fun it => (it.name db).toOption) ∘ Module.ofModuleId sr tree =
      some ∘ fun x => (x.parentLink tree).map (·.name tree) := by
    funext x
    simp [Module.name_ofModuleId htree, Except.toOption]
  have hroot : (r.parentLink tree).map (·.name tree) = none := by
    rw [ModuleId.parent_eq_none_iff.1 hnone]; rfl
  rw [← List.map_reverse, List.filterMap_map, hname, List.filterMap_eq_map, List.filterMap_map,
    Function.id_comp, ← List.dropLast_append_getLast? r hr, List.reverse_append,
    List.reverse_singleton, List.singleton_append]
  simp only [List.filterMap_cons, hroot, List.tail_cons]

/-- For an inline module with a {lit}`#[test]` function, on an acyclic module
tree and with no query cancelled, {lit}`runnable_mod` yields a {lit}`TestMod`
whose path joins with {lit}`::` the declared names of the modules of the
module's ancestor chain but the crate root, in root-to-leaf order, one per
module. -/
theorem runnableMod_testMod (htree : db.moduleTree sr = .ok tree) (hacyclic : tree.Acyclic)
    {fileId : FileId} {module : AstModule} {items : List ModuleItem}
    (hitems : module.itemList = some items)
    (htest : ∃ f, ModuleItem.fnDef f ∈ items ∧ f.hasAtomAttr "test" = true)
    {id : ModuleId} {m : Module} (hchild : db.moduleFromChildNode fileId module = .ok (some m))
    (hm : Module.fromModuleId db sr id = .ok m) :
    ∃ chain names, tree.ParentChain id chain ∧
      List.Forall₂ (fun x n => (Module.ofModuleId sr tree x).name db = .ok (some n))
        chain.reverse.tail names ∧
      names.length + 1 = chain.length ∧
      ∀ fuel ≥ chain.length,
        runnableMod db fuel fileId module = some ⟨module.range, .testMod ("::".intercalate names)⟩ := by
  rw [Module.fromModuleId_eq htree, Except.ok.injEq] at hm
  subst hm
  obtain ⟨chain, hchain⟩ := hacyclic id
  have hsome : ∀ x ∈ chain.reverse.tail, ((x.parentLink tree).map (·.name tree)).isSome := by
    intro x hx
    rw [List.tail_reverse, List.mem_reverse] at hx
    obtain ⟨p, hp⟩ := hchain.parent_of_mem_dropLast hx
    simpa [ModuleId.parent] using congrArg Option.isSome hp
  have hnames : List.Forall₂ (fun x n => (Module.ofModuleId sr tree x).name db = .ok (some n))
      chain.reverse.tail (chain.reverse.tail.filterMap fun x => (x.parentLink tree).map (·.name tree)) :=
    (forall₂_filterMap hsome).imp fun x n hn => by rw [Module.name_ofModuleId htree, hn]
  have hhas : (items.filterMap ModuleItem.fnDef?).any (·.hasAtomAttr "test") = true := by
    obtain ⟨f, hf, hattr⟩ := htest
    exact List.any_eq_true.2 ⟨f, List.mem_filterMap.2 ⟨_, hf, rfl⟩, hattr⟩
  refine ⟨chain, _, hchain, hnames, ?_, fun fuel hfuel => ?_⟩
  · obtain ⟨rest, rfl⟩ := hchain.head_eq
    rw [← hnames.length_eq]
    simp
  · have hok : ∀ {α : Type} (a : α), (Except.ok a : Cancelable α).toOption = some a := fun _ => rfl
    simp only [runnableMod, hitems, hhas, hchild, Module.pathToRoot_eq htree hchain hfuel, hok,
      testModPath_eq htree hchain, Option.join, Option.bind_eq_bind, Option.some_bind, Bool.not_true,
      Bool.false_eq_true, if_false, pure, Option.pure_def, id_eq]

end Spec

/-- {lit}`foo::bar` in {lit}`lib.rs` is the test module {lit}`foo::bar`. -/
theorem runnableMod_bar :
    ∃ chain names, nestedTree.ParentChain ⟨2⟩ chain ∧
      List.Forall₂ (fun x n => (Module.ofModuleId ⟨0⟩ nestedTree x).name nestedDb = .ok (some n))
        chain.reverse.tail names ∧
      names.length + 1 = chain.length ∧
      ∀ fuel ≥ chain.length, runnableMod nestedDb fuel ⟨0⟩ barDecl =
        some ⟨barDecl.range, .testMod ("::".intercalate names)⟩ :=
  runnableMod_testMod rfl nestedTree_acyclic rfl ⟨testFn, by decide, rfl⟩ rfl rfl

/-! ## Cancellation drops runnables, never alters one -/

/-- Dropping cancellation and absence leaves exactly the present answers. -/
theorem toOption_join_eq_some {α : Type} {x : Cancelable (Option α)} {a : α} :
    x.toOption.join = some a ↔ x = .ok (some a) := by
  cases x with
  | error e => simp [Except.toOption]
  | ok o => cases o <;> simp [Except.toOption]

/-- {lit}`runnable_mod` yields a runnable exactly for a module with items among
which a {lit}`#[test]` function, whose child-module query and
{lit}`path_to_root` answer: the {lit}`TestMod` of the names that answer. -/
theorem runnableMod_eq_some_iff {db : HirDatabase} {fuel : Nat} {fileId : FileId}
    {module : AstModule} {r : Runnable} :
    runnableMod db fuel fileId module = some r ↔
      ∃ items m ancestors, module.itemList = some items ∧
        (items.filterMap ModuleItem.fnDef?).any (·.hasAtomAttr "test") = true ∧
        db.moduleFromChildNode fileId module = .ok (some m) ∧
        m.pathToRoot db fuel = .ok (some ancestors) ∧
        r = ⟨module.range, .testMod ("::".intercalate
          ((ancestors.reverse.filterMap fun it => (it.name db).toOption).filterMap id))⟩ := by
  simp only [runnableMod, Option.bind_eq_bind, Option.bind_eq_some, toOption_join_eq_some]
  constructor
  · rintro ⟨items, hitems, h⟩
    split at h
    · simp at h
    · rename_i htest
      simp only [Option.bind_eq_some, toOption_join_eq_some, pure, Option.some.injEq] at h
      obtain ⟨_, -, m, hm, ancestors, hanc, rfl⟩ := h
      exact ⟨items, m, ancestors, hitems, by simpa using htest, hm, hanc, rfl⟩
  · rintro ⟨items, m, ancestors, hitems, htest, hm, hanc, rfl⟩
    refine ⟨items, hitems, ?_⟩
    simp [htest, hm, hanc, Except.toOption]

/-- Keeping fewer images, and the same ones, keeps a sublist. -/
theorem filterMap_sublist_filterMap {α β : Type} {f g : α → Option β}
    (h : ∀ a b, f a = some b → g a = some b) :
    ∀ l : List α, (l.filterMap f).Sublist (l.filterMap g)
  | [] => .slnil
  | a :: l => by
    cases hf : f a with
    | none =>
      rw [List.filterMap_cons_none hf]
      exact (filterMap_sublist_filterMap h l).trans ((List.sublist_cons_self a l).filterMap g)
    | some b =>
      rw [List.filterMap_cons_some hf, List.filterMap_cons_some (h a b hf)]
      exact (filterMap_sublist_filterMap h l).cons₂ b

section Cancel

variable {db db' : HirDatabase} (hc : db.CancelledFrom db')
include hc

/-- A runnable that {lit}`runnable_mod` yields on a snapshot with cancelled
queries is the one it yields on the full snapshot. -/
theorem runnableMod_of_cancelledFrom {fuel : Nat} {fileId : FileId} {module : AstModule}
    {r : Runnable} (h : runnableMod db fuel fileId module = some r) :
    runnableMod db' fuel fileId module = some r := by
  obtain ⟨items, m, ancestors, hitems, htest, hm, hanc, rfl⟩ := runnableMod_eq_some_iff.1 h
  have hnames : (ancestors.reverse.filterMap fun it => (it.name db).toOption) =
      ancestors.reverse.filterMap fun it => (it.name db').toOption := by
    refine List.filterMap_congr fun x hx => ?_
    obtain ⟨n, hn⟩ := Module.name_ok_of_pathToRoot hanc x (List.mem_reverse.1 hx)
    rw [hn, Module.name_answersAs hc x n hn]
  refine runnableMod_eq_some_iff.2 ⟨items, m, ancestors, hitems, htest,
    hc.moduleFromChildNode _ _ _ hm, Module.pathToRootLoop_answersAs hc fuel m [m] _ hanc, ?_⟩
  rw [hnames]

/-- On a snapshot with cancelled queries, {lit}`runnables` answers with a
sublist of the runnables of the full snapshot: each cancellation drops entries,
none is altered or added. -/
theorem runnables_sublist_of_cancelledFrom (fuel : Nat) (fileId : FileId) :
    ∃ rs rs', runnables db fuel fileId = .ok rs ∧ runnables db' fuel fileId = .ok rs' ∧
      rs.Sublist rs' := by
  refine ⟨_, _, rfl, rfl, ?_⟩
  rw [hc.sourceFile_eq]
  refine filterMap_sublist_filterMap (fun node r h => ?_) _
  cases node with
  | module m => exact runnableMod_of_cancelledFrom hc h
  | fnDef f => exact h
  | other _ => exact h

end Cancel

/-- The crate of {lit}`lib.rs` with the child-module query cancelled is the
full crate with some answers cancelled. -/
theorem canceledDb_cancelledFrom : canceledDb.CancelledFrom nestedDb where
  inputs_eq := rfl
  sourceFile_eq := rfl
  moduleTree _ := AnswersAs.refl _
  itemMap _ := AnswersAs.refl _
  enumData _ := AnswersAs.refl _
  moduleFromFileId _ := AnswersAs.refl _
  moduleFromChildNode _ _ _ h := by cases h

/-- The runnables of {lit}`lib.rs` with the child-module query cancelled are a
sublist of those of the full crate. -/
theorem runnables_canceledDb_sublist :
    canceledDb.CancelledFrom nestedDb ∧
      ∃ rs rs', runnables canceledDb 3 ⟨0⟩ = .ok rs ∧ runnables nestedDb 3 ⟨0⟩ = .ok rs' ∧
        rs.Sublist rs' :=
  ⟨canceledDb_cancelledFrom, runnables_sublist_of_cancelledFrom canceledDb_cancelledFrom 3 ⟨0⟩⟩

end RustAnalyzer
