import ModuleAtlas.Atlas.Importation

/-!
# Propagation

What a module sees of an import is declared at a level and takes over the scope of the import.
This is complete only if the import's own scope is final, so imports come before their importers.
Strict ordering refuses what comes out of order; otherwise it is noted and done nevertheless.
-/

namespace ModuleAtlas

namespace Loading

/-- Refuse or note a step that comes out of order. -/
def outOfOrder (fault : Fault) : Loading Unit := do
  if (← current).settings.strictOrdering then throw fault
  else emit (.anomaly fault)

/--
Make `target` visible from `module` at a level and take over what `target` sees.  The level must
not be none; `module` should import `target`, and `target` should be final.
-/
def setVisibility (module target : ModuleId) (level : Visibility) : Loading Unit := do
  let importer ← look fun atlas => atlas.findModule module
  let imported ← look fun atlas => atlas.findModule target
  if level = .none then
    throw (.invalidVisibility importer.fullName imported.fullName level)
  let atlas ← current
  if !atlas.importation.hasDirectEdge module target then
    outOfOrder (.missingImport importer.fullName imported.fullName)
  if !atlas.isVisibilityFinal target then
    outOfOrder (.premature importer.fullName imported.fullName)
  let absorbed := importer.absorbing target level imported.scope
  change fun atlas => atlas.updateModule module fun _ => absorbed
  emit (.propagated importer.name target.text level
    (Scope.added importer.scope absorbed.scope))

/--
Declare what a module imports and then the level of each import, in order.  A fault is reported by
the step that failed; what was done before it stays.
-/
def declareImports (module : ModuleId) (imports : List (ModuleId × Visibility)) :
    Loading Unit := do
  reported (setImports module (imports.map Prod.fst))
  imports.forM fun (target, level) => reported (setVisibility module target level)

end Loading

end ModuleAtlas
