import RustAnalyzer.Hir.PathToRoot

/-!
# Child modules

{lit}`Module::child` and {lit}`Module::children` read the child links of a
module's node, {lit}`Module::parent` and {lit}`Module::name` its parent link.
Where the tree keeps the two directions of every link in step
({lean}`ModuleTree.WellLinked`), the read API is consistent: the children of a
module have it as their parent, under the name they were declared with, and
their ancestor chain is the module's with the child in front.

Main results:

- Theorem {lit}`Module.child_spec`: the child found by name has the module as
  parent and that name, and is among the children.
- Theorem {lit}`Module.children_spec`: every child has the module as parent, a
  name, and the module's ancestor chain above it.
- Theorem {lit}`Module.child_of_mem_children`: when a module's child links have
  distinct names, {lit}`child` finds every child under its name.
-/

namespace RustAnalyzer

namespace Module

section Spec

variable {db : HirDatabase} {sr : SourceRootId} {tree : ModuleTree}

/-- A module listed by {lit}`children` has the listing module as parent and
the name of the link it is listed under. -/
theorem parent_name_of_mem_children (htree : db.moduleTree sr = .ok tree)
    (hlinked : tree.WellLinked) {id c : ModuleId} {name : Name} (h : (name, c) ∈ id.children tree) :
    (ofModuleId sr tree c).parent db = .ok (some (ofModuleId sr tree id)) ∧
      (ofModuleId sr tree c).name db = .ok (some name) := by
  obtain ⟨l, hl, howner, hname⟩ := ModuleId.parentLink_of_mem_children hlinked h
  rw [parent_ofModuleId htree, name_ofModuleId htree]
  simp [ModuleId.parent, hl, howner, hname]

/-- On a well-linked tree, the child {lit}`child` finds under {lean}`name` has
the module as parent and {lean}`name` as name, and {lit}`children` lists it. -/
theorem child_spec (htree : db.moduleTree sr = .ok tree) (hlinked : tree.WellLinked)
    {id : ModuleId} {m c : Module} (hm : fromModuleId db sr id = .ok m) {name : Name}
    (hchild : m.child db name = .ok (some c)) :
    c.parent db = .ok (some m) ∧ c.name db = .ok (some name) ∧
      ∃ cs, m.children db = .ok cs ∧ c ∈ cs := by
  rw [fromModuleId_eq htree, Except.ok.injEq] at hm
  subst hm
  rw [child_ofModuleId htree, Except.ok.injEq, Option.map_eq_some'] at hchild
  obtain ⟨c, hc, rfl⟩ := hchild
  have hmem := ModuleId.mem_children_of_child hc
  obtain ⟨hparent, hname⟩ := parent_name_of_mem_children htree hlinked hmem
  exact ⟨hparent, hname, _, children_ofModuleId htree id, List.mem_map.2 ⟨_, hmem, rfl⟩⟩

/-- On a well-linked tree, {lit}`children` answers, and every child has the
module as parent, has a name, and walks to the root through the module. -/
theorem children_spec (htree : db.moduleTree sr = .ok tree) (hlinked : tree.WellLinked)
    {id : ModuleId} {m : Module} (hm : fromModuleId db sr id = .ok m) :
    ∃ cs, m.children db = .ok cs ∧ ∀ c ∈ cs, c.parent db = .ok (some m) ∧
      (∃ name, c.name db = .ok (some name)) ∧
      ∀ fuel, c.pathToRoot db (fuel + 1) = (m.pathToRoot db fuel).map (Option.map (c :: ·)) := by
  rw [fromModuleId_eq htree, Except.ok.injEq] at hm
  subst hm
  refine ⟨_, children_ofModuleId htree id, fun c hc => ?_⟩
  obtain ⟨⟨name, c⟩, hmem, rfl⟩ := List.mem_map.1 hc
  obtain ⟨hparent, hname⟩ := parent_name_of_mem_children htree hlinked hmem
  exact ⟨hparent, ⟨name, hname⟩, pathToRoot_of_parent hparent⟩

/-- On a well-linked tree, when the child links of module {lean}`id` have
distinct names, {lit}`child` finds each of its children under the child's own
name. -/
theorem child_of_mem_children (htree : db.moduleTree sr = .ok tree) (hlinked : tree.WellLinked)
    {id : ModuleId} {m : Module} (hm : fromModuleId db sr id = .ok m)
    (hnodup : ((id.data tree).children.map (·.name tree)).Nodup) :
    ∃ cs, m.children db = .ok cs ∧
      ∀ c ∈ cs, ∃ name, c.name db = .ok (some name) ∧ m.child db name = .ok (some c) := by
  rw [fromModuleId_eq htree, Except.ok.injEq] at hm
  subst hm
  refine ⟨_, children_ofModuleId htree id, fun c hc => ?_⟩
  obtain ⟨⟨name, c⟩, hmem, rfl⟩ := List.mem_map.1 hc
  refine ⟨name, (parent_name_of_mem_children htree hlinked hmem).2, ?_⟩
  rw [child_ofModuleId htree, ModuleId.child_eq_of_mem_children hnodup hmem]
  rfl

end Spec

end Module

/-! ## The crate of {lit}`lib.rs` -/

/-- The tree of {lit}`lib.rs` keeps both directions of each link in step. -/
theorem nestedTree_wellLinked : nestedTree.WellLinked :=
  ModuleTree.wellLinked_of_forall_lt (by decide)

/-- {lit}`foo` is the child {lit}`foo` of the crate root. -/
theorem child_foo :
    (Module.ofModuleId ⟨0⟩ nestedTree ⟨0⟩).child nestedDb "foo" =
        .ok (some (Module.ofModuleId ⟨0⟩ nestedTree ⟨1⟩)) ∧
      (Module.ofModuleId ⟨0⟩ nestedTree ⟨1⟩).parent nestedDb =
        .ok (some (Module.ofModuleId ⟨0⟩ nestedTree ⟨0⟩)) ∧
      (Module.ofModuleId ⟨0⟩ nestedTree ⟨1⟩).name nestedDb = .ok (some "foo") ∧
      ∃ cs, (Module.ofModuleId ⟨0⟩ nestedTree ⟨0⟩).children nestedDb = .ok cs ∧
        Module.ofModuleId ⟨0⟩ nestedTree ⟨1⟩ ∈ cs :=
  ⟨rfl, @Module.child_spec nestedDb ⟨0⟩ nestedTree rfl nestedTree_wellLinked ⟨0⟩ _ _ rfl "foo" rfl⟩

/-- The children of {lit}`foo` sit below it. -/
theorem children_foo :
    ∃ cs, (Module.ofModuleId ⟨0⟩ nestedTree ⟨1⟩).children nestedDb = .ok cs ∧
      ∀ c ∈ cs, c.parent nestedDb = .ok (some (Module.ofModuleId ⟨0⟩ nestedTree ⟨1⟩)) ∧
        (∃ name, c.name nestedDb = .ok (some name)) ∧
        ∀ fuel, c.pathToRoot nestedDb (fuel + 1) =
          ((Module.ofModuleId ⟨0⟩ nestedTree ⟨1⟩).pathToRoot nestedDb fuel).map (Option.map (c :: ·)) :=
  @Module.children_spec nestedDb ⟨0⟩ nestedTree rfl nestedTree_wellLinked ⟨1⟩ _ rfl

/-- The crate root's one child link, {lit}`foo`, is found by name. -/
theorem child_of_mem_children_root :
    ((ModuleId.mk 0).data nestedTree).children.map (·.name nestedTree) = ["foo"] ∧
      ∃ cs, (Module.ofModuleId ⟨0⟩ nestedTree ⟨0⟩).children nestedDb = .ok cs ∧
        ∀ c ∈ cs, ∃ name, c.name nestedDb = .ok (some name) ∧
          (Module.ofModuleId ⟨0⟩ nestedTree ⟨0⟩).child nestedDb name = .ok (some c) :=
  ⟨rfl, @Module.child_of_mem_children nestedDb ⟨0⟩ nestedTree rfl nestedTree_wellLinked ⟨0⟩ _ rfl
    (by decide)⟩

end RustAnalyzer
