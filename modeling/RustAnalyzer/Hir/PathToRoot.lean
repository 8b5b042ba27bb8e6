import RustAnalyzer.Hir.Module

/-!
# The ancestor chain of a module

{lit}`Module::path_to_root` walks {lit}`parent` until it answers {lean}`none`.
Its loop has no bound of its own, so it is modelled with fuel; on an acyclic
module tree enough fuel always suffices, and the walk then agrees with the
{lit}`ModuleId`-level {lit}`crate_root` used by {lit}`crate_root_impl` and
{lit}`krate_impl`.

Main results:

- Theorem {lit}`Module.pathToRoot_of_parent`: a module's walk is its parent's
  with the module in front.
- Theorem {lit}`Module.pathToRootLoop_eq`: with fuel for the whole chain, the
  loop appends the chain's modules.
- Theorem {lit}`Module.pathToRoot_spec`: {lit}`path_to_root` terminates with
  the ancestor chain, ending at the crate root, the one element without parent,
  name and declaration, and every element has the same crate root and crate.
-/

namespace RustAnalyzer

namespace Module

section Spec

variable {db : HirDatabase} {sr : SourceRootId} {tree : ModuleTree}

/-- The loop only appends to its accumulator. -/
theorem pathToRootLoop_cons (fuel : Nat) (curr a : Module) (res : List Module) :
    pathToRootLoop db fuel curr (a :: res) =
      (pathToRootLoop db fuel curr res).map (Option.map (a :: ·)) := by
  induction fuel generalizing curr res with
  | zero => rfl
  | succ fuel ih =>
    simp only [pathToRootLoop, bind, Except.bind]
    cases curr.parent db with
    | error e => rfl
    | ok p =>
      cases p with
      | none => rfl
      | some next => exact ih next (res ++ [next])

/-- A module whose parent answers walks to the root through that parent. -/
theorem pathToRoot_of_parent {c m : Module} (h : c.parent db = .ok (some m)) (fuel : Nat) :
    c.pathToRoot db (fuel + 1) = (m.pathToRoot db fuel).map (Option.map (c :: ·)) := by
  simp only [pathToRoot, pathToRootLoop, h, bind, Except.bind]
  exact pathToRootLoop_cons fuel m c [m]

/-- With fuel for every module of the chain, the loop appends the chain's
remaining modules. -/
theorem pathToRootLoop_eq (htree : db.moduleTree sr = .ok tree) {id : ModuleId}
    {chain : List ModuleId} (h : tree.ParentChain id chain) {fuel : Nat}
    (hfuel : chain.length ≤ fuel) (res : List Module) :
    pathToRootLoop db fuel (ofModuleId sr tree id) res =
      .ok (some (res ++ chain.tail.map (ofModuleId sr tree))) := by
  induction h generalizing fuel res with
  | root hm =>
    obtain ⟨fuel, rfl⟩ : ∃ f, fuel = f + 1 := ⟨fuel - 1, by simp at hfuel; omega⟩
    simp [pathToRootLoop, parent_ofModuleId htree, hm, bind, Except.bind, pure, Except.pure]
  | link hp hrest ih =>
    obtain ⟨rest, rfl⟩ := hrest.head_eq
    obtain ⟨fuel, rfl⟩ : ∃ f, fuel = f + 1 := ⟨fuel - 1, by simp at hfuel; omega⟩
    simp only [pathToRootLoop, parent_ofModuleId htree, hp, Option.map_some', bind, Except.bind]
    rw [ih (by simp at hfuel ⊢; omega)]
    simp

/-- {lit}`path_to_root` returns the parent chain, given fuel for all of it. -/
theorem pathToRoot_eq (htree : db.moduleTree sr = .ok tree) {id : ModuleId}
    {chain : List ModuleId} (h : tree.ParentChain id chain) {fuel : Nat}
    (hfuel : chain.length ≤ fuel) :
    (ofModuleId sr tree id).pathToRoot db fuel = .ok (some (chain.map (ofModuleId sr tree))) := by
  obtain ⟨rest, rfl⟩ := h.head_eq
  rw [pathToRoot, pathToRootLoop_eq htree h hfuel]
  rfl

/-- On an acyclic module tree, {lit}`path_to_root` of
{lit}`m = Module::from_module_id(sr, id)` terminates and returns
{lit}`[m, parent(m), ..., r]`: each element but the last has the next as its
parent, {lit}`r = crate_root(m)` is the only element whose parent, name and
declaration source are all {lean}`none`, and every element has crate root
{lit}`r` and the crate of {lit}`m`. -/
theorem pathToRoot_spec (htree : db.moduleTree sr = .ok tree) (hacyclic : tree.Acyclic)
    {id : ModuleId} {m : Module} (hm : fromModuleId db sr id = .ok m) :
    ∃ path r, (∀ fuel ≥ path.length, m.pathToRoot db fuel = .ok (some path)) ∧
      path.head? = some m ∧ path.Chain' (fun x y => x.parent db = .ok (some y)) ∧
      path.getLast? = some r ∧ m.crateRoot db = .ok r ∧
      (∀ x ∈ path, (x.parent db = .ok none ∧ x.name db = .ok none ∧
        x.declarationSource db = .ok none) ↔ x = r) ∧
      ∀ x ∈ path, x.crateRoot db = .ok r ∧ x.krate db = m.krate db := by
  rw [fromModuleId_eq htree, Except.ok.injEq] at hm
  subst hm
  obtain ⟨chain, hchain⟩ := hacyclic id
  obtain ⟨rId, hrId, -⟩ := hchain.getLast_parent
  obtain ⟨rest, hrest⟩ := hchain.head_eq
  refine ⟨chain.map (ofModuleId sr tree), ofModuleId sr tree rId,
    fun fuel hfuel => pathToRoot_eq htree hchain (by simpa using hfuel), by simp [hrest], ?_,
    by simp [List.getLast?_map, hrId], by rw [crateRoot_ofModuleId htree, hchain.crateRoot_eq hrId],
    ?_, ?_⟩
  · exact List.chain'_map_of_chain' _ (fun a b hab => by simp [parent_ofModuleId htree, hab])
      hchain.chain'
  · intro x hx
    obtain ⟨y, hy, rfl⟩ := List.mem_map.1 hx
    have hlast : y.parent tree = none ↔ y = rId := by
      rw [hchain.parent_eq_none_iff hy, hrId, Option.some_inj, eq_comm]
    rw [parent_ofModuleId htree, name_ofModuleId htree, declarationSource_ofModuleId htree,
      ofModuleId_injective.eq_iff, ← hlast]
    simp [ModuleId.parent]
  · intro x hx
    obtain ⟨y, hy, rfl⟩ := List.mem_map.1 hx
    rw [crateRoot_ofModuleId htree, krate_ofModuleId htree, krate_ofModuleId htree,
      hchain.crateRoot_of_mem hrId hy, hchain.crateRoot_eq hrId]
    exact ⟨rfl, rfl⟩

end Spec

end Module

/-! ## A crate with nested inline modules

{lit}`lib.rs`, file {lit}`0`, is
{lit}`mod foo { mod bar { #[test] fn t() {} mod baz; } }` and no file exists
for {lit}`baz`.  Its walk lists the file node and then the items in source
order; the other nodes, which {lit}`runnable` skips, are left out. -/

/-- {lit}`#[test] fn t() {}`. -/
def testFn : FnDef :=
  ⟨some ⟨"t", ⟨31, 32⟩⟩, ["test"], ⟨20, 37⟩⟩

/-- {lit}`mod baz;`. -/
def bazDecl : AstModule :=
  ⟨⟨38, 46⟩, ⟨"baz", ⟨42, 45⟩⟩, none⟩

/-- {lit}`mod bar { #[test] fn t() {} mod baz; }`. -/
def barDecl : AstModule :=
  ⟨⟨10, 48⟩, ⟨"bar", ⟨14, 17⟩⟩, some [.fnDef testFn, .other ⟨38, 46⟩]⟩

/-- {lit}`mod foo { ... }`. -/
def fooDecl : AstModule :=
  ⟨⟨0, 50⟩, ⟨"foo", ⟨4, 7⟩⟩, some [.other ⟨10, 48⟩]⟩

/-- The module tree of {lit}`lib.rs`: crate root {lit}`0`, {lit}`foo` {lit}`1`
and {lit}`bar` {lit}`2`, whose link {lit}`baz` is unresolved. -/
def nestedTree : ModuleTree where
  mods := [⟨⟨⟨0⟩, none⟩, none, [⟨0⟩]⟩, ⟨⟨⟨0⟩, some ⟨0⟩⟩, some ⟨0⟩, [⟨1⟩]⟩,
    ⟨⟨⟨0⟩, some ⟨1⟩⟩, some ⟨1⟩, [⟨2⟩]⟩]
  links := [⟨⟨0⟩, "foo", [⟨1⟩], none, fooDecl⟩, ⟨⟨1⟩, "bar", [⟨2⟩], none, barDecl⟩,
    ⟨⟨2⟩, "baz", [], some (.unresolvedModule "foo/bar/baz.rs"), bazDecl⟩]

/-- A snapshot of the crate of {lit}`lib.rs` in which no query is cancelled. -/
def nestedDb : HirDatabase where
  inputs := { RootDatabase.empty with crateGraph := ⟨[(⟨0⟩, ⟨0⟩)]⟩ }
  sourceFile := fun _ => ⟨[.other ⟨0, 50⟩, .module fooDecl, .module barDecl, .fnDef testFn,
    .module bazDecl]⟩
  moduleTree := fun _ => .ok nestedTree
  itemMap := fun _ => .ok ⟨fun _ => ⟨fun _ => none⟩⟩
  enumData := fun _ => .ok ⟨none, []⟩
  moduleFromFileId := fun _ => .ok (some (Module.ofModuleId ⟨0⟩ nestedTree ⟨0⟩))
  moduleFromChildNode := fun _ node =>
    .ok (if node = barDecl then some (Module.ofModuleId ⟨0⟩ nestedTree ⟨2⟩)
      else if node = fooDecl then some (Module.ofModuleId ⟨0⟩ nestedTree ⟨1⟩) else none)
  variants_kind := by
    intro d data h v hv
    cases h
    cases hv

/-- The parent links of the tree of {lit}`lib.rs` are acyclic. -/
theorem nestedTree_acyclic : nestedTree.Acyclic :=
  ModuleTree.acyclic_of_forall_lt (by decide)

/-- The walk from {lit}`foo::bar` is its parent chain, ending at its crate root. -/
theorem pathToRoot_bar :
    ∃ path r, (∀ fuel ≥ path.length,
        (Module.ofModuleId ⟨0⟩ nestedTree ⟨2⟩).pathToRoot nestedDb fuel = .ok (some path)) ∧
      path.head? = some (Module.ofModuleId ⟨0⟩ nestedTree ⟨2⟩) ∧
      path.Chain' (fun x y => x.parent nestedDb = .ok (some y)) ∧
      path.getLast? = some r ∧ (Module.ofModuleId ⟨0⟩ nestedTree ⟨2⟩).crateRoot nestedDb = .ok r ∧
      (∀ x ∈ path, (x.parent nestedDb = .ok none ∧ x.name nestedDb = .ok none ∧
        x.declarationSource nestedDb = .ok none) ↔ x = r) ∧
      ∀ x ∈ path, x.crateRoot nestedDb = .ok r ∧
        x.krate nestedDb = (Module.ofModuleId ⟨0⟩ nestedTree ⟨2⟩).krate nestedDb :=
  Module.pathToRoot_spec rfl nestedTree_acyclic rfl

end RustAnalyzer
