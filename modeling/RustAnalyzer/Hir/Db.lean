import RustAnalyzer.Hir.ModuleTree

/-!
# Definitions, namespace pairs and the hir database

Definition locations and their handles, the typed entities that wrap a handle,
the namespace pair {lit}`PerNs`, module scopes, and a snapshot of the derived
queries that {lit}`code_model_impl` reads.  The builders of these queries
({lit}`module_tree`, {lit}`item_map`, {lit}`enum_data`, {lit}`source_binder`)
are not among the sources: a snapshot is their answers, each
{lit}`Cancelable`.

Main definitions:

- Structure {lit}`DefId`: a handle is its location, which is what a
  deduplicating interner whose {lit}`DefLoc::id` and {lit}`DefId::loc` are
  mutually inverse provides.
- Structure {lit}`PerNs`: the type slot and the value slot.
- Structure {lit}`HirDatabase`: the input store with the derived queries; it
  carries the fact that every enum variant's handle has the variant kind.
-/

namespace RustAnalyzer

/-! ## Locations and handles -/

/-- {lit}`DefKind`, the kind tag of a definition location. -/
inductive DefKind
  | module
  | struct
  | enum
  | enumVariant
  | function
  | const
  | static
  | trait
  | type
  | item
deriving DecidableEq, Repr

/-- {lit}`DefLoc`: where the syntax of a definition lives. -/
structure DefLoc where
  kind : DefKind
  sourceRootId : SourceRootId
  moduleId : ModuleId
  sourceItemId : SourceItemId
deriving DecidableEq, Repr

/-- Modelled from the spec: {lit}`DefId`, the interned handle of a location.
The interner deduplicates and {lit}`DefLoc::id` and {lit}`DefId::loc` are
mutually inverse, so a handle is determined by its location and is kept as it:
{lit}`def_id.loc(db)` is the field {lean}`DefId.loc`. -/
structure DefId where
  loc : DefLoc
deriving DecidableEq, Repr

/-- Modelled from the spec: {lit}`DefLoc::id`, interning a location. -/
def DefLoc.id (loc : DefLoc) : DefId :=
  ⟨loc⟩

/-! ## Typed entities -/

/-- {lit}`hir::Module`. -/
structure Module where
  defId : DefId
deriving DecidableEq, Repr

/-- {lit}`hir::Struct`. -/
structure Struct where
  defId : DefId
deriving DecidableEq, Repr

/-- {lit}`hir::Enum`. -/
structure Enum where
  defId : DefId
deriving DecidableEq, Repr

/-- {lit}`hir::EnumVariant`. -/
structure EnumVariant where
  defId : DefId
deriving DecidableEq, Repr

/-- {lit}`hir::Function`. -/
structure Function where
  defId : DefId
deriving DecidableEq, Repr

/-- {lit}`hir::Const`. -/
structure Const where
  defId : DefId
deriving DecidableEq, Repr

/-- {lit}`hir::Static`. -/
structure Static where
  defId : DefId
deriving DecidableEq, Repr

/-- {lit}`hir::Trait`. -/
structure Trait where
  defId : DefId
deriving DecidableEq, Repr

/-- {lit}`hir::Type`, a type alias. -/
structure TypeAlias where
  defId : DefId
deriving DecidableEq, Repr

/-- {lit}`Def`, the closed set of definition kinds. -/
inductive Def
  | module (m : Module)
  | struct (s : Struct)
  | enum (e : Enum)
  | enumVariant (v : EnumVariant)
  | function (f : Function)
  | const (c : Const)
  | static (s : Static)
  | trait (t : Trait)
  | type (t : TypeAlias)
  | item
deriving DecidableEq, Repr

/-- Modelled from the spec: {lit}`DefId::resolve`, one exhaustive dispatch on the
stored kind tag. -/
def DefId.resolve (d : DefId) : Def :=
  match d.loc.kind with
  | .module => .module ⟨d⟩
  | .struct => .struct ⟨d⟩
  | .enum => .enum ⟨d⟩
  | .enumVariant => .enumVariant ⟨d⟩
  | .function => .function ⟨d⟩
  | .const => .const ⟨d⟩
  | .static => .static ⟨d⟩
  | .trait => .trait ⟨d⟩
  | .type => .type ⟨d⟩
  | .item => .item

/-! ## Namespace pairs and scopes -/

/-- Modelled from the spec: {lit}`PerNs<T>` ({lit}`nameres.rs` is not among the
sources), a type slot and a value slot filled independently. -/
structure PerNs (α : Type) where
  types : Option α
  values : Option α
deriving DecidableEq, Repr

namespace PerNs

variable {α : Type}

/-- {lit}`PerNs::none()`. -/
def none : PerNs α :=
  ⟨Option.none, Option.none⟩

/-- {lit}`PerNs::types(t)`: only the type slot. -/
def ofTypes (t : α) : PerNs α :=
  ⟨some t, Option.none⟩

/-- {lit}`PerNs::both(types, values)`. -/
def both (types values : α) : PerNs α :=
  ⟨some types, some values⟩

/-- {lit}`as_ref().take_types()`. -/
def takeTypes (p : PerNs α) : Option α :=
  p.types

/-- {lit}`PerNs::both` fills the type slot with its first argument. -/
@[simp]
theorem both_types (t v : α) : (both t v).types = some t :=
  rfl

end PerNs

/-- Modelled from the spec: {lit}`Resolution`, the namespace pair a scope gives
a name; its import id is read by nothing modelled here. -/
structure Resolution where
  defId : PerNs DefId

/-- Modelled from the spec: {lit}`ModuleScope`, the names visible in a module. -/
structure ModuleScope where
  items : Name → Option Resolution

/-- {lit}`ModuleScope::get`. -/
def ModuleScope.get (scope : ModuleScope) (name : Name) : Option Resolution :=
  scope.items name

/-- Modelled from the spec: {lit}`ItemMap`, the scope of every module of a source root. -/
structure ItemMap where
  perModule : ModuleId → ModuleScope

/-- Modelled from the spec: {lit}`EnumData`, an enum's name and its variants in
declaration order. -/
structure EnumData where
  name : Option Name
  variants : List (Name × EnumVariant)

/-! ## The database snapshot -/

/-- A snapshot of the database: its inputs, the parse of each file, and the
answers of the derived queries, each of which may report cancellation.
Modelled from the spec: {lit}`enum_data` interns each variant under the variant
kind. -/
structure HirDatabase where
  inputs : RootDatabase
  sourceFile : FileId → SourceFile
  moduleTree : SourceRootId → Cancelable ModuleTree
  itemMap : SourceRootId → Cancelable ItemMap
  enumData : DefId → Cancelable EnumData
  moduleFromFileId : FileId → Cancelable (Option Module)
  moduleFromChildNode : FileId → AstModule → Cancelable (Option Module)
  variants_kind : ∀ d data, enumData d = .ok data → ∀ v ∈ data.variants,
    v.2.defId.loc.kind = .enumVariant

end RustAnalyzer
