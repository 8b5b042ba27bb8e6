import RustAnalyzer.Hir.ResolvePath

/-!
# Cancellation never changes an answer

Every derived query of a snapshot answers or reports {lit}`Canceled`.  The
methods of {lit}`hir::Module` pass each cancellation on with {lit}`?` and never
turn one into a default, so a method that answers on a snapshot where some
queries are cancelled gives the answer it gives on the snapshot where they
answer: cancellation can only replace an answer by {lit}`Canceled`.

Main results:

- Definition {lit}`HirDatabase.CancelledFrom`: a snapshot that is another with
  some query answers replaced by {lit}`Canceled`.
- Theorem {lit}`Module.answersAs_of_cancelledFrom`: every method of the read
  API, path resolution and the ancestor walk included, answers on the cancelled
  snapshot only as on the full one.
-/

namespace RustAnalyzer

/-- {lean}`x` answers only as {lean}`y` does. -/
def AnswersAs {α : Type} (x y : Cancelable α) : Prop :=
  ∀ a, x = .ok a → y = .ok a

namespace AnswersAs

variable {α β : Type}

/-- Every computation answers only as itself. -/
theorem refl (x : Cancelable α) : AnswersAs x x :=
  fun _ => id

/-- Binding keeps answering alike, given continuations that answer alike. -/
theorem bind {x y : Cancelable α} {f g : α → Cancelable β} (h : AnswersAs x y)
    (hf : ∀ a, AnswersAs (f a) (g a)) : AnswersAs (x >>= f) (y >>= g) := by
  intro b hb
  cases hx : x with
  | error e => rw [hx] at hb; cases hb
  | ok a => rw [hx] at hb; rw [h a hx]; exact hf a b hb

/-- Mapping the answer keeps answering alike. -/
theorem map {x y : Cancelable α} (h : AnswersAs x y) (f : α → β) : AnswersAs (f <$> x) (f <$> y) :=
  h.bind fun a => refl (pure (f a))

/-- Mapping a list with functions that answer alike answers alike. -/
theorem mapM {f g : α → Cancelable β} (hf : ∀ a, AnswersAs (f a) (g a)) :
    ∀ l : List α, AnswersAs (l.mapM f) (l.mapM g)
  | [] => refl _
  | a :: l => by
    rw [List.mapM_cons, List.mapM_cons]
    exact (hf a).bind fun b => (mapM hf l).bind fun bs => refl _

end AnswersAs

/-- {lean}`db` is the snapshot {lean}`db'` with some query answers replaced by
{lit}`Canceled`: the same inputs and parses, and every query that answers in
{lean}`db` answers the same in {lean}`db'`. -/
structure HirDatabase.CancelledFrom (db db' : HirDatabase) : Prop where
  inputs_eq : db.inputs = db'.inputs
  sourceFile_eq : db.sourceFile = db'.sourceFile
  moduleTree : ∀ sr, AnswersAs (db.moduleTree sr) (db'.moduleTree sr)
  itemMap : ∀ sr, AnswersAs (db.itemMap sr) (db'.itemMap sr)
  enumData : ∀ d, AnswersAs (db.enumData d) (db'.enumData d)
  moduleFromFileId : ∀ f, AnswersAs (db.moduleFromFileId f) (db'.moduleFromFileId f)
  moduleFromChildNode : ∀ f n, AnswersAs (db.moduleFromChildNode f n) (db'.moduleFromChildNode f n)

namespace Module

variable {db : HirDatabase}

/-- A module whose parent answers has its name answer: both read the module
tree of its source root. -/
theorem name_ok_of_parent_ok {m : Module} {p : Option Module} (h : m.parent db = .ok p) :
    ∃ n, m.name db = .ok n := by
  simp only [parent, name, bind, Except.bind] at h ⊢
  cases ht : db.moduleTree m.defId.loc.sourceRootId with
  | error e => rw [ht] at h; cases h
  | ok t =>
    dsimp only
    cases m.defId.loc.moduleId.parentLink t <;> exact ⟨_, rfl⟩

/-- A walk that ends asked the parent of its start and of every module it
added. -/
theorem parent_ok_of_pathToRootLoop :
    ∀ {fuel : Nat} {curr : Module} {res path : List Module},
      pathToRootLoop db fuel curr res = .ok (some path) →
        (∃ p, curr.parent db = .ok p) ∧ ∀ x ∈ path, x ∈ res ∨ ∃ p, x.parent db = .ok p
  | 0, _, _, _, h => by cases h
  | fuel + 1, curr, res, path, h => by
    simp only [pathToRootLoop, bind, Except.bind] at h
    cases hp : curr.parent db with
    | error e => rw [hp] at h; cases h
    | ok p =>
      rw [hp] at h
      refine ⟨⟨p, rfl⟩, ?_⟩
      cases p with
      | none => cases h; exact fun x hx => .inl hx
      | some next =>
        obtain ⟨hnext, hpath⟩ := parent_ok_of_pathToRootLoop h
        simp only [List.mem_append, List.mem_singleton] at hpath
        intro x hx
        rcases hpath x hx with (hx | rfl) | hx
        exacts [.inl hx, .inr hnext, .inr hx]

/-- Every module of an answered ancestor walk has its name answer. -/
theorem name_ok_of_pathToRoot {m : Module} {fuel : Nat} {path : List Module}
    (h : m.pathToRoot db fuel = .ok (some path)) : ∀ x ∈ path, ∃ n, x.name db = .ok n := by
  obtain ⟨⟨_, hm⟩, hpath⟩ := parent_ok_of_pathToRootLoop h
  simp only [List.mem_singleton] at hpath
  intro x hx
  rcases hpath x hx with rfl | ⟨_, hx⟩
  exacts [name_ok_of_parent_ok hm, name_ok_of_parent_ok hx]

end Module

section Cancel

variable {db db' : HirDatabase} (hc : db.CancelledFrom db')
include hc

/-- {lit}`Enum::variants` answers only as on the full snapshot. -/
theorem Enum.variants_answersAs (e : Enum) : AnswersAs (e.variants db) (e.variants db') :=
  (hc.enumData _).bind fun _ => AnswersAs.refl _

namespace Module

/-- {lit}`from_module_id` answers only as on the full snapshot. -/
theorem fromModuleId_answersAs (sr : SourceRootId) (id : ModuleId) :
    AnswersAs (fromModuleId db sr id) (fromModuleId db' sr id) :=
  (hc.moduleTree sr).bind fun _ => AnswersAs.refl _

/-- {lit}`Module::name` answers only as on the full snapshot. -/
theorem name_answersAs (m : Module) : AnswersAs (m.name db) (m.name db') := by
  refine (hc.moduleTree _).bind fun t => ?_
  cases m.defId.loc.moduleId.parentLink t <;> exact AnswersAs.refl _

/-- {lit}`Module::declaration_source` answers only as on the full snapshot. -/
theorem declarationSource_answersAs (m : Module) :
    AnswersAs (m.declarationSource db) (m.declarationSource db') := by
  refine (hc.moduleTree _).bind fun t => ?_
  cases m.defId.loc.moduleId.parentLink t <;> exact AnswersAs.refl _

/-- {lit}`Module::crate_root` answers only as on the full snapshot. -/
theorem crateRoot_answersAs (m : Module) : AnswersAs (m.crateRoot db) (m.crateRoot db') :=
  (hc.moduleTree _).bind fun _ => fromModuleId_answersAs hc _ _

/-- {lit}`Module::krate` answers only as on the full snapshot. -/
theorem krate_answersAs (m : Module) : AnswersAs (m.krate db) (m.krate db') := by
  refine (crateRoot_answersAs hc m).bind fun root => ?_
  rw [hc.inputs_eq]
  exact AnswersAs.refl _

/-- {lit}`Module::child` answers only as on the full snapshot. -/
theorem child_answersAs (m : Module) (name : Name) :
    AnswersAs (m.child db name) (m.child db' name) := by
  refine (hc.moduleTree _).bind fun t => ?_
  cases m.defId.loc.moduleId.child t name with
  | none => exact AnswersAs.refl _
  | some c => exact (fromModuleId_answersAs hc _ _).map _

/-- {lit}`Module::children` answers only as on the full snapshot. -/
theorem children_answersAs (m : Module) : AnswersAs (m.children db) (m.children db') :=
  (hc.moduleTree _).bind fun _ => AnswersAs.mapM (fun _ => fromModuleId_answersAs hc _ _) _

/-- {lit}`Module::parent` answers only as on the full snapshot. -/
theorem parent_answersAs (m : Module) : AnswersAs (m.parent db) (m.parent db') := by
  refine (hc.moduleTree _).bind fun t => ?_
  cases m.defId.loc.moduleId.parent t with
  | none => exact AnswersAs.refl _
  | some p => exact (fromModuleId_answersAs hc _ _).map _

/-- The loop of {lit}`path_to_root` answers only as on the full snapshot. -/
theorem pathToRootLoop_answersAs (fuel : Nat) (curr : Module) (res : List Module) :
    AnswersAs (pathToRootLoop db fuel curr res) (pathToRootLoop db' fuel curr res) := by
  induction fuel generalizing curr res with
  | zero => exact AnswersAs.refl _
  | succ fuel ih =>
    refine (parent_answersAs hc curr).bind fun p => ?_
    cases p with
    | none => exact AnswersAs.refl _
    | some next => exact ih next _

/-- {lit}`Module::scope` answers only as on the full snapshot. -/
theorem scope_answersAs (m : Module) : AnswersAs (m.scope db) (m.scope db') :=
  (hc.itemMap _).bind fun _ => AnswersAs.refl _

/-- {lit}`Module::problems` answers only as on the full snapshot. -/
theorem problems_answersAs (m : Module) : AnswersAs (m.problems db) (m.problems db') :=
  (hc.moduleTree _).bind fun _ => AnswersAs.refl _

/-- The enum step of resolution answers only as on the full snapshot. -/
theorem resolveVariant_answersAs (e : Enum) (name : Name) :
    AnswersAs (resolveVariant db e name) (resolveVariant db' e name) :=
  (Enum.variants_answersAs hc e).bind fun _ => AnswersAs.refl _

/-- The segment recursion of resolution answers only as on the full snapshot. -/
theorem resolveSegments_answersAs (p : PerNs DefId) (segments : List Name) :
    AnswersAs (resolveSegments db p segments) (resolveSegments db' p segments) := by
  induction segments generalizing p with
  | nil => exact AnswersAs.refl _
  | cons name rest ih =>
    obtain ⟨types, values⟩ := p
    cases types with
    | none => exact AnswersAs.refl _
    | some curr =>
      simp only [resolveSegments]
      cases curr.resolve with
      | module module =>
        refine (scope_answersAs hc module).bind fun scope => ?_
        cases scope.get name with
        | none => exact AnswersAs.refl _
        | some r => exact ih _
      | enum e =>
        by_cases hrest : rest = []
        · simp only [hrest, if_true]
          exact resolveVariant_answersAs hc e name
        · simp only [hrest, if_false]
          exact AnswersAs.refl _
      | _ => exact AnswersAs.refl _

/-- {lit}`Module::resolve_path` answers only as on the full snapshot. -/
theorem resolvePath_answersAs (m : Module) (path : Path) :
    AnswersAs (m.resolvePath db path) (m.resolvePath db' path) := by
  simp only [resolvePath, resolvePathLoop_eq path.segments path.segments 0 _ (by simp)]
  have hstart : AnswersAs (m.pathStart db path.kind) (m.pathStart db' path.kind) := by
    cases path.kind with
    | crate => exact (crateRoot_answersAs hc m).map _
    | self_ | plain => exact AnswersAs.refl _
    | super => exact parent_answersAs hc m
  refine hstart.bind fun start => ?_
  cases start with
  | none => exact AnswersAs.refl _
  | some start => exact resolveSegments_answersAs hc _ _

/-- Cancellation never changes an answer of the read API: on a snapshot with
some queries cancelled, every method of a module that answers, path resolution
and the ancestor walk included, gives the answer of the full snapshot. -/
theorem answersAs_of_cancelledFrom (m : Module) :
    AnswersAs (m.name db) (m.name db') ∧
      AnswersAs (m.declarationSource db) (m.declarationSource db') ∧
      AnswersAs (m.krate db) (m.krate db') ∧ AnswersAs (m.crateRoot db) (m.crateRoot db') ∧
      (∀ name, AnswersAs (m.child db name) (m.child db' name)) ∧
      AnswersAs (m.children db) (m.children db') ∧ AnswersAs (m.parent db) (m.parent db') ∧
      (∀ fuel, AnswersAs (m.pathToRoot db fuel) (m.pathToRoot db' fuel)) ∧
      AnswersAs (m.scope db) (m.scope db') ∧
      (∀ path, AnswersAs (m.resolvePath db path) (m.resolvePath db' path)) ∧
      AnswersAs (m.problems db) (m.problems db') :=
  ⟨name_answersAs hc m, declarationSource_answersAs hc m, krate_answersAs hc m,
    crateRoot_answersAs hc m, child_answersAs hc m, children_answersAs hc m,
    parent_answersAs hc m, fun fuel => pathToRootLoop_answersAs hc fuel m [m],
    scope_answersAs hc m, resolvePath_answersAs hc m, problems_answersAs hc m⟩

end Module

end Cancel

/-- The crate of {lit}`lib.rs` with the item map cancelled. -/
def itemsCanceledDb : HirDatabase :=
  { nestedDb with itemMap := fun _ => .error ⟨⟩ }

/-- The crate of {lit}`lib.rs` with the item map cancelled is the full crate with
some answers cancelled. -/
theorem itemsCanceledDb_cancelledFrom : itemsCanceledDb.CancelledFrom nestedDb where
  inputs_eq := rfl
  sourceFile_eq := rfl
  moduleTree _ := AnswersAs.refl _
  itemMap _ _ h := by cases h
  enumData _ := AnswersAs.refl _
  moduleFromFileId _ := AnswersAs.refl _
  moduleFromChildNode _ _ := AnswersAs.refl _

/-- With the item map cancelled, {lit}`foo::bar` answers only as it does in the
full snapshot. -/
theorem answersAs_itemsCanceled :
    itemsCanceledDb.CancelledFrom nestedDb ∧
      AnswersAs ((Module.ofModuleId ⟨0⟩ nestedTree ⟨2⟩).name itemsCanceledDb)
        ((Module.ofModuleId ⟨0⟩ nestedTree ⟨2⟩).name nestedDb) ∧
      AnswersAs ((Module.ofModuleId ⟨0⟩ nestedTree ⟨2⟩).declarationSource itemsCanceledDb)
        ((Module.ofModuleId ⟨0⟩ nestedTree ⟨2⟩).declarationSource nestedDb) ∧
      AnswersAs ((Module.ofModuleId ⟨0⟩ nestedTree ⟨2⟩).krate itemsCanceledDb)
        ((Module.ofModuleId ⟨0⟩ nestedTree ⟨2⟩).krate nestedDb) ∧
      AnswersAs ((Module.ofModuleId ⟨0⟩ nestedTree ⟨2⟩).crateRoot itemsCanceledDb)
        ((Module.ofModuleId ⟨0⟩ nestedTree ⟨2⟩).crateRoot nestedDb) ∧
      (∀ name, AnswersAs ((Module.ofModuleId ⟨0⟩ nestedTree ⟨2⟩).child itemsCanceledDb name)
        ((Module.ofModuleId ⟨0⟩ nestedTree ⟨2⟩).child nestedDb name)) ∧
      AnswersAs ((Module.ofModuleId ⟨0⟩ nestedTree ⟨2⟩).children itemsCanceledDb)
        ((Module.ofModuleId ⟨0⟩ nestedTree ⟨2⟩).children nestedDb) ∧
      AnswersAs ((Module.ofModuleId ⟨0⟩ nestedTree ⟨2⟩).parent itemsCanceledDb)
        ((Module.ofModuleId ⟨0⟩ nestedTree ⟨2⟩).parent nestedDb) ∧
      (∀ fuel, AnswersAs ((Module.ofModuleId ⟨0⟩ nestedTree ⟨2⟩).pathToRoot itemsCanceledDb fuel)
        ((Module.ofModuleId ⟨0⟩ nestedTree ⟨2⟩).pathToRoot nestedDb fuel)) ∧
      AnswersAs ((Module.ofModuleId ⟨0⟩ nestedTree ⟨2⟩).scope itemsCanceledDb)
        ((Module.ofModuleId ⟨0⟩ nestedTree ⟨2⟩).scope nestedDb) ∧
      (∀ path, AnswersAs ((Module.ofModuleId ⟨0⟩ nestedTree ⟨2⟩).resolvePath itemsCanceledDb path)
        ((Module.ofModuleId ⟨0⟩ nestedTree ⟨2⟩).resolvePath nestedDb path)) ∧
      AnswersAs ((Module.ofModuleId ⟨0⟩ nestedTree ⟨2⟩).problems itemsCanceledDb)
        ((Module.ofModuleId ⟨0⟩ nestedTree ⟨2⟩).problems nestedDb) :=
  ⟨itemsCanceledDb_cancelledFrom,
    Module.answersAs_of_cancelledFrom itemsCanceledDb_cancelledFrom _⟩

end RustAnalyzer
