import RustAnalyzer.Db.Input

/-!
# Syntax trees

The parts of {lit}`ra_syntax` trees that the modelled code reads.  The parser is
an external collaborator, so a file is given by the list its
{lit}`syntax().descendants()` walk yields, and each node keeps only the fields
the code reads.  Parser error recovery, which can leave a {lit}`mod` item
without a name, is out of scope: every module item here has its name.
-/

namespace RustAnalyzer

/-- {lit}`TextRange`, the half-open range {lit}`[start; end)` of a node. -/
structure TextRange where
  start : Nat
  endPos : Nat
deriving DecidableEq, Repr, Inhabited

/-- {lit}`ast::Name`: an identifier and its range. -/
structure AstName where
  text : String
  range : TextRange
deriving DecidableEq, Repr, Inhabited

/-- {lit}`ast::FnDef`: its name, the atoms of its attributes and its range. -/
structure FnDef where
  name : Option AstName
  atomAttrs : List String
  range : TextRange
deriving DecidableEq, Repr

/-- {lit}`fn_def.has_atom_attr(atom)`. -/
def FnDef.hasAtomAttr (f : FnDef) (atom : String) : Bool :=
  f.atomAttrs.any (· == atom)

/-- {lit}`ast::ModuleItemKind`, an item of a module's item list. -/
inductive ModuleItem
  | fnDef (f : FnDef)
  | other (range : TextRange)
deriving DecidableEq, Repr

/-- {lit}`ast::Module`: a {lit}`mod` item, with the item list of an inline
module and {lean}`none` for {lit}`mod foo;`. -/
structure AstModule where
  range : TextRange
  name : AstName
  itemList : Option (List ModuleItem)
deriving DecidableEq, Repr, Inhabited

/-- A node of the {lit}`descendants()` walk, as far as {lit}`runnable` tells them apart. -/
inductive SyntaxNode
  | fnDef (f : FnDef)
  | module (m : AstModule)
  | other (range : TextRange)
deriving DecidableEq, Repr

/-- {lit}`SourceFile`, given by its {lit}`syntax().descendants()` walk. -/
structure SourceFile where
  descendants : List SyntaxNode
deriving DecidableEq, Repr

end RustAnalyzer
