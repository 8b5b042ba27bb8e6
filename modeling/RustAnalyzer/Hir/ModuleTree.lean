import RustAnalyzer.Syntax
import Mathlib.Data.List.Perm.Subperm
import Mathlib.Data.List.Nodup
import Mathlib.Data.List.Chain

/-!
# Module trees

The module tree of one source root, an arena of module nodes and an arena of
parent links.  {lit}`module_tree.rs` is not among the sources, so its data and
the {lit}`ModuleId` and {lit}`LinkId` accessors that {lit}`code_model_impl`
calls are modelled from the spec: a module node has a source item, an optional
parent link and its child links; a link has its declaring name, its owning
module, its declaration and an optional problem.

Main results:

- Inductive {lit}`ModuleTree.ParentChain`: a module, its parent, its
  grandparent, and so on up to a module without parent.
- Theorem {lit}`ModuleTree.ParentChain.length_le`: a parent chain never holds
  more modules than the arena plus one, because chains repeat no module.
- Theorem {lit}`ModuleTree.ParentChain.crateRoot_eq`: {lit}`crate_root` is the
  last module of the chain.
-/

namespace RustAnalyzer

/-! ## Identifiers and node data -/

/-- {lit}`Name`, an identifier. -/
abbrev Name := String

/-- {lit}`ModuleId`, an index into the module arena. -/
structure ModuleId where
  val : Nat
deriving DecidableEq, Repr, Inhabited

/-- {lit}`LinkId`, an index into the link arena. -/
structure LinkId where
  val : Nat
deriving DecidableEq, Repr, Inhabited

/-- {lit}`SourceFileItemId`, the index of an item in its file. -/
structure SourceFileItemId where
  val : Nat
deriving DecidableEq, Repr, Inhabited

/-- Modelled from the spec: {lit}`SourceItemId`, a file and an item of it
({lean}`none` for the file itself).  Macro-expanded files are out of scope, so
{lit}`file_id.as_original_file()` is the file itself. -/
structure SourceItemId where
  fileId : FileId
  itemId : Option SourceFileItemId
deriving DecidableEq, Repr, Inhabited

/-- {lit}`Problem`: a recoverable module-layout issue of a child link. -/
inductive Problem
  | unresolvedModule (candidate : RelativePathBuf)
  | notDirOwner (moveTo candidate : RelativePathBuf)
deriving DecidableEq, Repr

/-- Modelled from the spec: a module node. -/
structure ModuleData where
  source : SourceItemId
  parent : Option LinkId
  children : List LinkId
deriving Inhabited

/-- Modelled from the spec: a parent link, the {lit}`mod` declaration that makes
its owner the parent of a module, with the modules the declaration resolves to
({lean}`[]` when it resolves to none). -/
structure LinkData where
  owner : ModuleId
  name : Name
  pointsTo : List ModuleId
  problem : Option Problem
  source : AstModule
deriving Inhabited

/-- Modelled from the spec: the module tree of one source root. -/
structure ModuleTree where
  mods : List ModuleData
  links : List LinkData

/-! ## Accessors -/

namespace LinkId

/-- The link's data; an index past the arena reads the default link. -/
def data (l : LinkId) (tree : ModuleTree) : LinkData :=
  tree.links.getD l.val default

/-- {lit}`LinkId::owner`. -/
def owner (l : LinkId) (tree : ModuleTree) : ModuleId :=
  (l.data tree).owner

/-- {lit}`LinkId::name`. -/
def name (l : LinkId) (tree : ModuleTree) : Name :=
  (l.data tree).name

/-- Modelled from the spec: {lit}`LinkId::source`, the declaring {lit}`mod` item. -/
def source (l : LinkId) (tree : ModuleTree) : AstModule :=
  (l.data tree).source

/-- Modelled from the spec: {lit}`LinkId::points_to`, the modules the link
resolves to. -/
def pointsTo (l : LinkId) (tree : ModuleTree) : List ModuleId :=
  (l.data tree).pointsTo

end LinkId

namespace ModuleId

/-- The module's data; an index past the arena reads the default node, which has
no parent. -/
def data (m : ModuleId) (tree : ModuleTree) : ModuleData :=
  tree.mods.getD m.val default

/-- {lit}`ModuleId::source`. -/
def source (m : ModuleId) (tree : ModuleTree) : SourceItemId :=
  (m.data tree).source

/-- {lit}`ModuleId::parent_link`. -/
def parentLink (m : ModuleId) (tree : ModuleTree) : Option LinkId :=
  (m.data tree).parent

/-- {lit}`ModuleId::parent`: the owner of the parent link. -/
def parent (m : ModuleId) (tree : ModuleTree) : Option ModuleId :=
  (m.parentLink tree).map fun l => l.owner tree

/-- Follow at most {lean}`fuel` parent links. -/
def crateRootFuel (tree : ModuleTree) : Nat → ModuleId → ModuleId
  | 0, m => m
  | fuel + 1, m =>
    match m.parent tree with
    | none => m
    | some p => crateRootFuel tree fuel p

/-- Modelled from the spec: {lit}`ModuleId::crate_root`, the top of the parent
chain.  An acyclic chain visits each module of the arena at most once, so the
arena's size bounds the walk. -/
def crateRoot (m : ModuleId) (tree : ModuleTree) : ModuleId :=
  crateRootFuel tree tree.mods.length m

/-- Modelled from the spec: {lit}`ModuleId::problems`, the problem of each child
link that has one, with the name node of its declaration. -/
def problems (m : ModuleId) (tree : ModuleTree) : List (AstName × Problem) :=
  (m.data tree).children.filterMap fun l => ((l.data tree).problem).map fun p => ((l.source tree).name, p)

/-- Modelled from the spec: {lit}`ModuleId::child`, the first module that the
first child link declared under {lean}`name` resolves to. -/
def child (m : ModuleId) (tree : ModuleTree) (name : Name) : Option ModuleId :=
  ((m.data tree).children.find? fun l => l.name tree == name).bind fun l => (l.pointsTo tree).head?

/-- Modelled from the spec: {lit}`ModuleId::children`, the name and first target
of every child link that resolves, in declaration order. -/
def children (m : ModuleId) (tree : ModuleTree) : List (Name × ModuleId) :=
  (m.data tree).children.filterMap fun l => (l.pointsTo tree).head?.map fun c => (l.name tree, c)

/-- A module has no parent exactly when it has no parent link. -/
theorem parent_eq_none_iff {m : ModuleId} {tree : ModuleTree} :
    m.parent tree = none ↔ m.parentLink tree = none := by
  simp [parent]

/-- A module with a parent lies inside the arena. -/
theorem val_lt_of_parent_eq_some {m p : ModuleId} {tree : ModuleTree}
    (h : m.parent tree = some p) : m.val < tree.mods.length := by
  by_contra hlt
  simp [parent, parentLink, data, List.getElem?_eq_none_iff.2 (Nat.le_of_not_lt hlt)] at h

end ModuleId

/-! ## Parent chains -/

namespace ModuleTree

variable {tree : ModuleTree}

/-- {lean}`chain` is {lean}`m`, its parent, its grandparent, and so on, ending
at a module without parent. -/
inductive ParentChain (tree : ModuleTree) : ModuleId → List ModuleId → Prop
  | root {m : ModuleId} : m.parent tree = none → ParentChain tree m [m]
  | link {m p : ModuleId} {rest : List ModuleId} :
      m.parent tree = some p → ParentChain tree p rest → ParentChain tree m (m :: rest)

/-- The parent links are acyclic: every module's parent chain ends. -/
def Acyclic (tree : ModuleTree) : Prop :=
  ∀ m : ModuleId, ∃ chain, tree.ParentChain m chain

namespace ParentChain

/-- A parent chain starts at its module. -/
theorem head_eq {m : ModuleId} {chain : List ModuleId} (h : tree.ParentChain m chain) :
    ∃ rest, chain = m :: rest := by
  cases h with
  | root _ => exact ⟨[], rfl⟩
  | link _ _ => exact ⟨_, rfl⟩

/-- A module has one parent chain. -/
theorem unique {m : ModuleId} {c c' : List ModuleId} (h : tree.ParentChain m c)
    (h' : tree.ParentChain m c') : c = c' := by
  induction h generalizing c' with
  | root hm =>
    cases h' with
    | root _ => rfl
    | link hp _ => simp [hm] at hp
  | link hp _ ih =>
    cases h' with
    | root hm => simp [hm] at hp
    | link hp' hrest' =>
      rw [hp] at hp'
      cases hp'
      rw [ih hrest']

/-- Every module on a chain has, as its own chain, a suffix of it. -/
theorem exists_of_mem {m x : ModuleId} {chain : List ModuleId} (h : tree.ParentChain m chain)
    (hx : x ∈ chain) : ∃ c, tree.ParentChain x c ∧ c <:+ chain := by
  induction h with
  | root hm =>
    rw [List.mem_singleton.1 hx]
    exact ⟨_, .root hm, List.suffix_refl _⟩
  | link hp hrest ih =>
    rcases List.mem_cons.1 hx with rfl | hx
    · exact ⟨_, .link hp hrest, List.suffix_refl _⟩
    · obtain ⟨c, hc, hsuf⟩ := ih hx
      exact ⟨c, hc, hsuf.trans (List.suffix_cons _ _)⟩

/-- A chain repeats no module. -/
theorem nodup {m : ModuleId} {chain : List ModuleId} (h : tree.ParentChain m chain) :
    chain.Nodup := by
  induction h with
  | root _ => exact List.nodup_singleton _
  | link hp hrest ih =>
    refine List.nodup_cons.2 ⟨fun hm => ?_, ih⟩
    obtain ⟨c, hc, hsuf⟩ := hrest.exists_of_mem hm
    have := hsuf.length_le
    rw [(hc.unique (.link hp hrest))] at this
    simp only [List.length_cons] at this
    omega

/-- Each module of a chain but the last has the next one as its parent. -/
theorem chain' {m : ModuleId} {chain : List ModuleId} (h : tree.ParentChain m chain) :
    chain.Chain' fun x y => x.parent tree = some y := by
  induction h with
  | root _ => exact List.chain'_singleton _
  | link hp hrest ih =>
    obtain ⟨rest, rfl⟩ := hrest.head_eq
    exact List.Chain'.cons hp ih

/-- The last module of a chain has no parent. -/
theorem getLast_parent {m : ModuleId} {chain : List ModuleId} (h : tree.ParentChain m chain) :
    ∃ r, chain.getLast? = some r ∧ r.parent tree = none := by
  induction h with
  | root hm => exact ⟨_, rfl, hm⟩
  | link _ hrest ih =>
    obtain ⟨r, hr, hnone⟩ := ih
    obtain ⟨rest, rfl⟩ := hrest.head_eq
    exact ⟨r, by rw [List.getLast?_cons_cons]; exact hr, hnone⟩

/-- Within a chain, a module has no parent exactly when it is the last one. -/
theorem parent_eq_none_iff {m x : ModuleId} {chain : List ModuleId}
    (h : tree.ParentChain m chain) (hx : x ∈ chain) :
    x.parent tree = none ↔ chain.getLast? = some x := by
  constructor
  · intro hnone
    obtain ⟨c, hc, pre, rfl⟩ := h.exists_of_mem hx
    cases hc with
    | root _ => simp
    | link hp _ => simp [hnone] at hp
  · intro hlast
    obtain ⟨r, hr, hnone⟩ := h.getLast_parent
    rw [hlast, Option.some.injEq] at hr
    rwa [hr]

/-- Every module of a chain but the last has a parent. -/
theorem parent_of_mem_dropLast {m y : ModuleId} {chain : List ModuleId}
    (h : tree.ParentChain m chain) (hy : y ∈ chain.dropLast) : ∃ p, y.parent tree = some p := by
  induction h with
  | root _ => simp at hy
  | link hp hrest ih =>
    obtain ⟨rest, rfl⟩ := hrest.head_eq
    rw [List.dropLast_cons₂] at hy
    rcases List.mem_cons.1 hy with rfl | hy
    · exact ⟨_, hp⟩
    · exact ih hy

/-- A chain holds at most one module more than the arena: all but its last
module have parents, so lie in the arena, and none repeats. -/
theorem length_le {m : ModuleId} {chain : List ModuleId} (h : tree.ParentChain m chain) :
    chain.length ≤ tree.mods.length + 1 := by
  have hinj : Function.Injective ModuleId.val := fun a b e => by cases a; cases b; cases e; rfl
  have hsub : (chain.dropLast.map ModuleId.val).Subperm (List.range tree.mods.length) := by
    refine List.Nodup.subperm ((h.nodup.sublist (List.dropLast_sublist _)).map hinj) fun v hv => ?_
    obtain ⟨y, hy, rfl⟩ := List.mem_map.1 hv
    obtain ⟨p, hp⟩ := h.parent_of_mem_dropLast hy
    exact List.mem_range.2 (ModuleId.val_lt_of_parent_eq_some hp)
  have := hsub.length_le
  simp only [List.length_map, List.length_dropLast, List.length_range] at this
  omega

/-- With fuel for every link of the chain, the walk ends at its last module. -/
theorem crateRootFuel_eq {m r : ModuleId} {chain : List ModuleId} (h : tree.ParentChain m chain)
    (hr : chain.getLast? = some r) {fuel : Nat} (hfuel : chain.length ≤ fuel + 1) :
    ModuleId.crateRootFuel tree fuel m = r := by
  induction h generalizing fuel with
  | root hm =>
    cases hr
    cases fuel <;> simp [ModuleId.crateRootFuel, hm]
  | link hp hrest ih =>
    obtain ⟨rest, rfl⟩ := hrest.head_eq
    obtain ⟨fuel, rfl⟩ : ∃ f, fuel = f + 1 := ⟨fuel - 1, by simp at hfuel; omega⟩
    rw [List.getLast?_cons_cons] at hr
    simp only [ModuleId.crateRootFuel, hp]
    exact ih hr (by simp at hfuel ⊢; omega)

/-- {lit}`crate_root` is the last module of the parent chain. -/
theorem crateRoot_eq {m r : ModuleId} {chain : List ModuleId} (h : tree.ParentChain m chain)
    (hr : chain.getLast? = some r) : m.crateRoot tree = r :=
  h.crateRootFuel_eq hr h.length_le

/-- Every module on a chain has the chain's last module as its crate root. -/
theorem crateRoot_of_mem {m x r : ModuleId} {chain : List ModuleId}
    (h : tree.ParentChain m chain) (hr : chain.getLast? = some r) (hx : x ∈ chain) :
    x.crateRoot tree = r := by
  obtain ⟨c, hc, pre, rfl⟩ := h.exists_of_mem hx
  obtain ⟨rest, rfl⟩ := hc.head_eq
  rw [List.getLast?_append, List.getLast?_cons] at hr
  exact hc.crateRoot_eq (by simpa [List.getLast?_cons] using hr)

end ParentChain

/-- A walk that stops at a module without parent traces that module's chain. -/
theorem exists_parentChain_of_crateRootFuel {fuel : Nat} {m : ModuleId}
    (h : (ModuleId.crateRootFuel tree fuel m).parent tree = none) : ∃ chain, tree.ParentChain m chain := by
  induction fuel generalizing m with
  | zero => exact ⟨[m], .root h⟩
  | succ fuel ih =>
    simp only [ModuleId.crateRootFuel] at h
    split at h
    · exact ⟨[m], .root ‹_›⟩
    · obtain ⟨c, hc⟩ := ih h
      exact ⟨_, .link ‹_› hc⟩

/-- Acyclicity is decided on the arena: every module's {lit}`crate_root` walk
ends at a module without parent. -/
theorem acyclic_of_forall_lt
    (h : ∀ i < tree.mods.length, ((⟨i⟩ : ModuleId).crateRoot tree).parent tree = none) :
    tree.Acyclic := by
  intro m
  by_cases hm : m.val < tree.mods.length
  · exact exists_parentChain_of_crateRootFuel (h m.val hm)
  · cases hp : m.parent tree with
    | none => exact ⟨[m], .root hp⟩
    | some p => exact absurd (ModuleId.val_lt_of_parent_eq_some hp) hm

end ModuleTree

/-! ## Child links -/

namespace ModuleTree

variable {tree : ModuleTree}

/-- Each child link of a module is owned by it and is the parent link of every
module it resolves to: the tree keeps the two directions of a link in step. -/
def WellLinked (tree : ModuleTree) : Prop :=
  ∀ m : ModuleId, ∀ l ∈ (m.data tree).children,
    l.owner tree = m ∧ ∀ c ∈ l.pointsTo tree, c.parentLink tree = some l

/-- The link invariant is decided on the arena: a module outside it has no
child links. -/
theorem wellLinked_of_forall_lt
    (h : ∀ i < tree.mods.length, ∀ l ∈ (ModuleId.mk i).data tree |>.children,
      l.owner tree = ⟨i⟩ ∧ ∀ c ∈ l.pointsTo tree, c.parentLink tree = some l) :
    tree.WellLinked := by
  intro m l hl
  by_cases hm : m.val < tree.mods.length
  · exact h m.val hm l hl
  · simp only [ModuleId.data, List.getD_eq_getElem?_getD,
      List.getElem?_eq_none_iff.2 (Nat.le_of_not_lt hm), Option.getD_none] at hl
    exact absurd hl (List.not_mem_nil l)

end ModuleTree

namespace ModuleId

variable {tree : ModuleTree} {m c : ModuleId} {name : Name}

/-- A child pair is the name and the first target of a child link. -/
theorem mem_children_iff : (name, c) ∈ m.children tree ↔
    ∃ l ∈ (m.data tree).children, l.name tree = name ∧ (l.pointsTo tree).head? = some c := by
  simp only [children, List.mem_filterMap, Option.map_eq_some', Prod.mk.injEq]
  constructor
  · rintro ⟨l, hl, c, hc, rfl, rfl⟩
    exact ⟨l, hl, rfl, hc⟩
  · rintro ⟨l, hl, rfl, hc⟩
    exact ⟨l, hl, c, hc, rfl, rfl⟩

/-- {lit}`child` finds an entry of {lit}`children`. -/
theorem mem_children_of_child (h : m.child tree name = some c) : (name, c) ∈ m.children tree := by
  obtain ⟨l, hl, hc⟩ := Option.bind_eq_some.1 h
  exact mem_children_iff.2 ⟨l, List.mem_of_find?_eq_some hl, by simpa using List.find?_some hl, hc⟩

/-- With distinct child-link names, {lit}`child` finds every entry of
{lit}`children`. -/
theorem child_eq_of_mem_children (hnodup : ((m.data tree).children.map (·.name tree)).Nodup)
    (h : (name, c) ∈ m.children tree) : m.child tree name = some c := by
  obtain ⟨l, hl, hname, hc⟩ := mem_children_iff.1 h
  have hfind : ((m.data tree).children.find? fun l => l.name tree == name).isSome :=
    List.find?_isSome.2 ⟨l, hl, by simpa using hname⟩
  obtain ⟨l', hl'⟩ := Option.isSome_iff_exists.1 hfind
  obtain rfl : l' = l := List.inj_on_of_nodup_map hnodup (List.mem_of_find?_eq_some hl') hl
    (by rw [hname]; simpa using List.find?_some hl')
  simp [child, hl', hc]

/-- On a well-linked tree, a module listed by {lit}`children` has as parent
link the child link it is listed under. -/
theorem parentLink_of_mem_children (hlinked : tree.WellLinked) (h : (name, c) ∈ m.children tree) :
    ∃ l, c.parentLink tree = some l ∧ l.owner tree = m ∧ l.name tree = name := by
  obtain ⟨l, hl, hname, hc⟩ := mem_children_iff.1 h
  obtain ⟨howner, hpoints⟩ := hlinked m l hl
  exact ⟨l, hpoints c (List.mem_of_mem_head? hc), howner, hname⟩

end ModuleId

end RustAnalyzer
