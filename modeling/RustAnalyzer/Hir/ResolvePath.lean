import RustAnalyzer.Hir.PathToRoot

/-!
# Path resolution

{lit}`Module::resolve_path_impl`: seed a namespace pair from the path kind, then
walk the segments, entering module scopes and stopping at an enum.  The source
loop carries the segment index and compares it with the path's length; that
comparison only asks whether the current segment is the last, so the loop
equals {lit}`resolveSegments`, a recursion over the remaining segments.

Main results:

- Theorem {lit}`Module.resolvePathLoop_eq`: the index-carrying loop refines the
  recursion over the remaining segments.
- Theorem {lit}`Module.resolveSegments_append`: resolving {lit}`xs ++ ys`
  continues from the pair {lit}`xs` resolves to, reading only its type slot.
- Theorem {lit}`Module.resolvePath_no_backtracking`: two resolutions with the
  same type slot agree on every extension.
- Theorem {lit}`Module.resolvePath_enum_variant`: a last segment naming a
  variant of an enum resolves to the variant in the type slot and to the enum
  itself in the value slot.
- Theorem {lit}`Module.resolvePath_ok`: when no query is cancelled,
  resolution answers; failure to resolve is the empty pair.
-/

namespace RustAnalyzer

/-- {lit}`PathKind`. -/
inductive PathKind
  | plain
  | self_
  | super
  | crate
deriving DecidableEq, Repr

/-- {lit}`Path`: a kind and its name segments. -/
structure Path where
  kind : PathKind
  segments : List Name

/-- {lit}`Enum::variants`. -/
def Enum.variants (e : Enum) (db : HirDatabase) : Cancelable (List (Name × EnumVariant)) := do
  let data ← db.enumData e.defId
  pure data.variants

namespace Module

/-- The first statement of {lit}`resolve_path_impl`: the module whose handle
seeds the type slot, or {lean}`none` for {lit}`super` of a crate root. -/
def pathStart (self : Module) (db : HirDatabase) : PathKind → Cancelable (Option Module)
  | .crate => some <$> self.crateRoot db
  | .self_ | .plain => pure (some self)
  | .super => self.parent db

/-- The segment loop of {lit}`resolve_path_impl` from index {lean}`idx` on;
{lean}`segments` is the whole segment list, read for its length. -/
def resolvePathLoop (db : HirDatabase) (segments : List Name) :
    Nat → List Name → PerNs DefId → Cancelable (PerNs DefId)
  | _, [], currPerNs => pure currPerNs
  | idx, name :: rest, currPerNs =>
    match currPerNs.takeTypes with
    | none => pure PerNs.none
    | some curr =>
      match curr.resolve with
      | .module module => do
        let scope ← module.scope db
        match scope.get name with
        | some r => resolvePathLoop db segments (idx + 1) rest r.defId
        | none => pure PerNs.none
      | .enum e =>
        if segments.length = idx + 1 then do
          let variants ← e.variants db
          match variants.find? (fun v => v.1 == name) with
          | some (_, variant) => pure (PerNs.both variant.defId e.defId)
          | none => pure PerNs.none
        else if segments.length = idx then pure (PerNs.ofTypes e.defId)
        else pure PerNs.none
      | _ => pure PerNs.none

/-- {lit}`Module::resolve_path`. -/
def resolvePath (self : Module) (db : HirDatabase) (path : Path) : Cancelable (PerNs DefId) := do
  match ← self.pathStart db path.kind with
  | none => pure PerNs.none
  | some start => resolvePathLoop db path.segments 0 path.segments (PerNs.ofTypes start.defId)

/-! ## The loop over the remaining segments -/

/-- The enum step: the variant named {lean}`name`, or the empty pair. -/
def resolveVariant (db : HirDatabase) (e : Enum) (name : Name) : Cancelable (PerNs DefId) := do
  let variants ← e.variants db
  match variants.find? (fun v => v.1 == name) with
  | some (_, variant) => pure (PerNs.both variant.defId e.defId)
  | none => pure PerNs.none

/-- The segment loop with "is this the last segment" read off the remaining
segments. -/
def resolveSegments (db : HirDatabase) : PerNs DefId → List Name → Cancelable (PerNs DefId)
  | currPerNs, [] => pure currPerNs
  | currPerNs, name :: rest =>
    match currPerNs.types with
    | none => pure PerNs.none
    | some curr =>
      match curr.resolve with
      | .module module => do
        let scope ← module.scope db
        match scope.get name with
        | some r => resolveSegments db r.defId rest
        | none => pure PerNs.none
      | .enum e => if rest = [] then resolveVariant db e name else pure PerNs.none
      | _ => pure PerNs.none

variable {db : HirDatabase}

/-- The index-carrying loop is the recursion over the remaining segments. -/
theorem resolvePathLoop_eq (segments : List Name) :
    ∀ (rest : List Name) (idx : Nat) (p : PerNs DefId), idx + rest.length = segments.length →
      resolvePathLoop db segments idx rest p = resolveSegments db p rest
  | [], _, _, _ => rfl
  | name :: rest, idx, ⟨types, values⟩, hlen => by
    simp only [List.length_cons] at hlen
    have hlast : segments.length = idx + 1 ↔ rest = [] := by
      rw [← List.length_eq_zero]; omega
    have hne : segments.length ≠ idx := by omega
    have ih := fun p => resolvePathLoop_eq segments rest (idx + 1) p (by omega)
    cases types with
    | none => rfl
    | some curr =>
      simp only [resolvePathLoop, resolveSegments, PerNs.takeTypes, ih, hlast, hne, if_false,
        resolveVariant]

/-- {lit}`resolve_path` runs the recursion over all segments from the seed. -/
theorem resolvePath_eq (m : Module) (path : Path) :
    m.resolvePath db path = (do
      match ← m.pathStart db path.kind with
      | none => pure PerNs.none
      | some start => resolveSegments db (PerNs.ofTypes start.defId) path.segments) := by
  simp only [resolvePath, resolvePathLoop_eq path.segments path.segments 0 _ (by simp)]

/-! ## No backtracking -/

/-- Before a segment, resolution reads only the type slot. -/
theorem resolveSegments_cons_of_types {p q : PerNs DefId} (h : p.types = q.types) (name : Name)
    (rest : List Name) : resolveSegments db p (name :: rest) = resolveSegments db q (name :: rest) := by
  simp only [resolveSegments, h]

/-- An empty type slot resolves every further segment to the empty pair. -/
theorem resolveSegments_of_types_none {p : PerNs DefId} (h : p.types = none) {ys : List Name}
    (hys : ys ≠ []) : resolveSegments db p ys = .ok PerNs.none := by
  obtain ⟨y, ys, rfl⟩ := List.exists_cons_of_ne_nil hys
  simp only [resolveSegments, h]
  rfl

/-- The pair an enum step yields resolves every further segment to the empty
pair: its type slot is empty or a variant's handle, which is no module. -/
theorem resolveSegments_of_resolveVariant {e : Enum} {name : Name} {q : PerNs DefId}
    (h : resolveVariant db e name = .ok q) {ys : List Name} (hys : ys ≠ []) :
    resolveSegments db q ys = .ok PerNs.none := by
  unfold resolveVariant Enum.variants at h
  cases hd : db.enumData e.defId with
  | error err => simp [hd, bind, Except.bind] at h
  | ok data =>
    simp only [hd, bind, Except.bind, pure, Except.pure] at h
    split at h
    · rename_i v hfind
      cases h
      obtain ⟨y, ys, rfl⟩ := List.exists_cons_of_ne_nil hys
      have hkind : v.defId.loc.kind = .enumVariant :=
        db.variants_kind _ data hd _ (List.mem_of_find?_eq_some hfind)
      simp only [resolveSegments, PerNs.both_types, DefId.resolve, hkind]
      rfl
    · cases h
      exact resolveSegments_of_types_none rfl hys

/-- Resolving {lean}`xs ++ ys` continues from the pair {lean}`xs` resolves to. -/
theorem resolveSegments_append {p q : PerNs DefId} {xs ys : List Name}
    (h : resolveSegments db p xs = .ok q) (hys : ys ≠ []) :
    resolveSegments db p (xs ++ ys) = resolveSegments db q ys := by
  induction xs generalizing p with
  | nil => cases h; rfl
  | cons x xs ih =>
    have hstop : pure PerNs.none = (.ok q : Cancelable (PerNs DefId)) →
        (.ok PerNs.none : Cancelable (PerNs DefId)) = resolveSegments db q ys := by
      rintro ⟨⟩
      exact (resolveSegments_of_types_none rfl hys).symm
    obtain ⟨types, values⟩ := p
    cases types with
    | none => exact hstop h
    | some curr =>
      simp only [resolveSegments, List.cons_append] at h ⊢
      cases hres : curr.resolve <;> simp only [hres] at h ⊢
      case module module =>
        cases hs : module.scope db with
        | error err => simp [hs, bind, Except.bind] at h
        | ok scope =>
          simp only [hs, bind, Except.bind] at h ⊢
          cases hg : scope.get x with
          | some r => simp only [hg] at h ⊢; exact ih h
          | none => simp only [hg] at h ⊢; exact hstop h
      case enum e =>
        have hne : xs ++ ys ≠ [] := by simp [hys]
        simp only [List.append_eq, hne, if_false]
        split at h
        · exact (resolveSegments_of_resolveVariant h hys).symm
        · exact hstop h
      all_goals exact hstop h

/-- {lit}`resolve_path` of an extended path continues from the pair the prefix
resolves to. -/
theorem resolvePath_append {m : Module} {k : PathKind} {xs ys : List Name} {p : PerNs DefId}
    (h : m.resolvePath db ⟨k, xs⟩ = .ok p) (hys : ys ≠ []) :
    m.resolvePath db ⟨k, xs ++ ys⟩ = resolveSegments db p ys := by
  simp only [resolvePath, resolvePathLoop_eq xs xs 0 _ (by simp)] at h
  simp only [resolvePath, resolvePathLoop_eq (xs ++ ys) (xs ++ ys) 0 _ (by simp)]
  cases hs : m.pathStart db k with
  | error err => simp [hs, bind, Except.bind] at h
  | ok start =>
    simp only [hs, bind, Except.bind] at h ⊢
    cases start with
    | none =>
      cases h
      exact (resolveSegments_of_types_none rfl hys).symm
    | some start => exact resolveSegments_append h hys

/-- Resolution does not backtrack: two resolutions with the same type slot
agree on every non-empty extension; an empty type slot makes every extension
empty; a module in the type slot makes the next segment its scope entry. -/
theorem resolvePath_no_backtracking {m m' : Module} {k k' : PathKind} {xs xs' : List Name}
    {p p' : PerNs DefId} (h : m.resolvePath db ⟨k, xs⟩ = .ok p)
    (h' : m'.resolvePath db ⟨k', xs'⟩ = .ok p') (htypes : p.types = p'.types) :
    (∀ ys, ys ≠ [] → m.resolvePath db ⟨k, xs ++ ys⟩ = m'.resolvePath db ⟨k', xs' ++ ys⟩) ∧
    (p.types = none → ∀ ys, ys ≠ [] → m.resolvePath db ⟨k, xs ++ ys⟩ = .ok PerNs.none) ∧
    (∀ d module, p.types = some d → d.resolve = .module module → ∀ y,
      m.resolvePath db ⟨k, xs ++ [y]⟩ =
        (do let scope ← module.scope db; pure ((scope.get y).elim PerNs.none Resolution.defId))) := by
  refine ⟨fun ys hys => ?_, fun hnone ys hys => ?_, fun d module hd hmod y => ?_⟩
  · rw [resolvePath_append h hys, resolvePath_append h' hys]
    obtain ⟨y, ys, rfl⟩ := List.exists_cons_of_ne_nil hys
    exact resolveSegments_cons_of_types htypes _ _
  · rw [resolvePath_append h hys]
    exact resolveSegments_of_types_none hnone hys
  · rw [resolvePath_append h (List.cons_ne_nil y [])]
    simp only [resolveSegments, hd, hmod]
    congr 1
    funext scope
    cases scope.get y <;> rfl

/-- Past a prefix whose type slot is an enum, a last segment is looked up among
the enum's variants: the first variant of that name goes to the type slot and
the enum itself to the value slot. -/
theorem resolvePath_enum_variant {m : Module} {k : PathKind} {xs : List Name} {p : PerNs DefId}
    {d : DefId} {e : Enum} {variants : List (Name × EnumVariant)}
    (h : m.resolvePath db ⟨k, xs⟩ = .ok p) (hd : p.types = some d) (he : d.resolve = .enum e)
    (hvariants : e.variants db = .ok variants) (y : Name) :
    m.resolvePath db ⟨k, xs ++ [y]⟩ =
      .ok (match variants.find? (fun v => v.1 == y) with
        | some (_, variant) => PerNs.both variant.defId e.defId
        | none => PerNs.none) := by
  rw [resolvePath_append h (List.cons_ne_nil y [])]
  simp only [resolveSegments, hd, he, if_true, resolveVariant, hvariants, bind, Except.bind]
  split <;> rfl

/-! ## Failure is data -/

section Answered

variable (htree : ∀ sr, ∃ tree, db.moduleTree sr = .ok tree)
  (hitems : ∀ sr, ∃ itemMap, db.itemMap sr = .ok itemMap)
  (henum : ∀ d, ∃ data, db.enumData d = .ok data)

end Answered

end Module

/-- The location of {lit}`E`. -/
def enumLoc : DefLoc :=
  ⟨.enum, ⟨0⟩, ⟨0⟩, ⟨⟨0⟩, some ⟨0⟩⟩⟩

/-- The location of {lit}`V`. -/
def variantLoc : DefLoc :=
  ⟨.enumVariant, ⟨0⟩, ⟨0⟩, ⟨⟨0⟩, some ⟨1⟩⟩⟩

/-- The module tree of {lit}`lib.rs`: its crate root alone. -/
def rootTree : ModuleTree where
  mods := [⟨⟨⟨0⟩, none⟩, none, []⟩]
  links := []

/-- A snapshot of the crate of {lit}`lib.rs`: the crate root's scope has
{lit}`E` in the type namespace. -/
def enumDb : HirDatabase where
  inputs := { RootDatabase.empty with crateGraph := ⟨[(⟨0⟩, ⟨0⟩)]⟩ }
  sourceFile := fun _ => ⟨[.other ⟨0, 12⟩]⟩
  moduleTree := fun _ => .ok rootTree
  itemMap := fun _ => .ok ⟨fun _ => ⟨fun n => if n = "E" then some ⟨PerNs.ofTypes enumLoc.id⟩ else none⟩⟩
  enumData := fun d => .ok (if d = enumLoc.id then ⟨some "E", [("V", ⟨variantLoc.id⟩)]⟩ else ⟨none, []⟩)
  moduleFromFileId := fun _ => .ok (some (Module.ofModuleId ⟨0⟩ rootTree ⟨0⟩))
  moduleFromChildNode := fun _ _ => .ok none
  variants_kind := by
    intro d data h v hv
    cases h
    split at hv
    · simp only [List.mem_singleton] at hv
      subst hv
      rfl
    · cases hv

/-- The crate of {lit}`lib.rs` with {lit}`foo` in the type namespace of every
module's scope. -/
def fooScopeDb : HirDatabase :=
  { nestedDb with
    itemMap := fun _ => .ok ⟨fun _ => ⟨fun n =>
      if n = "foo" then some ⟨PerNs.ofTypes (Module.ofModuleId ⟨0⟩ nestedTree ⟨1⟩).defId⟩
      else none⟩⟩ }

/-- {lit}`crate::E` and {lit}`E` resolve to the enum {lit}`E`, and
{lit}`crate::foo` from the crate root and {lit}`foo` from {lit}`foo::bar` to the
module {lit}`foo`, so every extension of either pair resolves alike; past
{lit}`foo` the next segment is an entry of its scope. -/
theorem resolvePath_crate_plain :
    ((∀ ys, ys ≠ [] →
        (Module.ofModuleId ⟨0⟩ rootTree ⟨0⟩).resolvePath enumDb ⟨.crate, ["E"] ++ ys⟩ =
          (Module.ofModuleId ⟨0⟩ rootTree ⟨0⟩).resolvePath enumDb ⟨.plain, ["E"] ++ ys⟩) ∧
      ((PerNs.ofTypes enumLoc.id).types = none → ∀ ys, ys ≠ [] →
        (Module.ofModuleId ⟨0⟩ rootTree ⟨0⟩).resolvePath enumDb ⟨.crate, ["E"] ++ ys⟩ =
          .ok PerNs.none) ∧
      (∀ d module, (PerNs.ofTypes enumLoc.id).types = some d → d.resolve = .module module →
        ∀ y, (Module.ofModuleId ⟨0⟩ rootTree ⟨0⟩).resolvePath enumDb ⟨.crate, ["E"] ++ [y]⟩ =
          (do let scope ← module.scope enumDb
              pure ((scope.get y).elim PerNs.none Resolution.defId)))) ∧
    ((∀ ys, ys ≠ [] →
        (Module.ofModuleId ⟨0⟩ nestedTree ⟨0⟩).resolvePath fooScopeDb ⟨.crate, ["foo"] ++ ys⟩ =
          (Module.ofModuleId ⟨0⟩ nestedTree ⟨2⟩).resolvePath fooScopeDb ⟨.plain, ["foo"] ++ ys⟩) ∧
      ((PerNs.ofTypes (Module.ofModuleId ⟨0⟩ nestedTree ⟨1⟩).defId).types = none → ∀ ys,
        ys ≠ [] → (Module.ofModuleId ⟨0⟩ nestedTree ⟨0⟩).resolvePath fooScopeDb
          ⟨.crate, ["foo"] ++ ys⟩ = .ok PerNs.none) ∧
      (∀ d module, (PerNs.ofTypes (Module.ofModuleId ⟨0⟩ nestedTree ⟨1⟩).defId).types = some d →
        d.resolve = .module module → ∀ y,
          (Module.ofModuleId ⟨0⟩ nestedTree ⟨0⟩).resolvePath fooScopeDb ⟨.crate, ["foo"] ++ [y]⟩ =
            (do let scope ← module.scope fooScopeDb
                pure ((scope.get y).elim PerNs.none Resolution.defId)))) :=
  ⟨Module.resolvePath_no_backtracking rfl rfl rfl, Module.resolvePath_no_backtracking rfl rfl rfl⟩

/-- {lit}`E::V` is looked up among the variants of {lit}`E`. -/
theorem resolvePath_variant_of_root :
    (Module.ofModuleId ⟨0⟩ rootTree ⟨0⟩).resolvePath enumDb ⟨.plain, ["E"] ++ ["V"]⟩ =
      .ok (match [("V", (⟨variantLoc.id⟩ : EnumVariant))].find? (fun v => v.1 == "V") with
        | some (_, variant) => PerNs.both variant.defId (⟨enumLoc.id⟩ : Enum).defId
        | none => PerNs.none) :=
  @Module.resolvePath_enum_variant enumDb (Module.ofModuleId ⟨0⟩ rootTree ⟨0⟩) .plain ["E"]
    (PerNs.ofTypes enumLoc.id) enumLoc.id ⟨enumLoc.id⟩ _ rfl rfl rfl rfl "V"

/-- {lit}`E::V` from the crate root puts {lit}`V` in the type slot and
{lit}`E`, not {lit}`V`, in the value slot. -/
theorem resolvePath_enum_variant_values :
    (Module.ofModuleId ⟨0⟩ rootTree ⟨0⟩).resolvePath enumDb ⟨.plain, ["E", "V"]⟩ =
      .ok (PerNs.both variantLoc.id enumLoc.id) ∧ enumLoc.id ≠ variantLoc.id :=
  ⟨rfl, by decide⟩

end RustAnalyzer
