import RustAnalyzer.Db.Input
import RustAnalyzer.Db.ApplyChange
import RustAnalyzer.Db.Listing
import RustAnalyzer.Db.ClosedForm
import RustAnalyzer.Db.Merge
import RustAnalyzer.Db.Runs
import RustAnalyzer.Syntax
import RustAnalyzer.Hir.ModuleTree
import RustAnalyzer.Hir.Db
import RustAnalyzer.Hir.Module
import RustAnalyzer.Hir.PathToRoot
import RustAnalyzer.Hir.Children
import RustAnalyzer.Hir.ResolvePath
import RustAnalyzer.Hir.Cancel
import RustAnalyzer.Ide.Runnables
import RustAnalyzer.Ide.Diagnostics
import RustAnalyzer.Ide.Navigation
