import ModuleAtlas.Atlas.Loading

/-!
# Importation

The direct imports of a module are declared once, all together.  The whole list is checked before
the first edge is added, so that a refused list leaves nothing behind.
-/

namespace ModuleAtlas

namespace Atlas

/-- Whether `module` must not import `imported`, because it is the same or imports `module`. -/
def wouldCycle (atlas : Atlas) (module imported : ModuleId) : Bool :=
  atlas.settings.checkAcyclic &&
    (imported = module || atlas.importation.gt imported module)

def checkImport (atlas : Atlas) (module imported : ModuleId) : Except Fault Unit := do
  let _ ← atlas.findModule imported
  if atlas.wouldCycle module imported then
    throw (.cycle atlas.importation.name (atlas.fullNameOf module) (atlas.fullNameOf imported))

/-- Check a list of imports; the first that is refused decides. -/
def checkImports (atlas : Atlas) (module : ModuleId) (imports : List ModuleId) :
    Except Fault Unit :=
  imports.forM fun imported => atlas.checkImport module imported

end Atlas

namespace Loading

/-- Declare what a module imports directly.  It must not have direct imports yet. -/
def setImports (module : ModuleId) (imports : List ModuleId) : Loading Unit := do
  let importer ← look fun atlas => atlas.findModule module
  let entry ← look fun atlas => atlas.entry .importation module
  if !entry.directBelow.isEmpty then
    throw (.importsAlreadySet importer.fullName)
  look fun atlas => atlas.checkImports module imports
  imports.forM fun imported => link .importation module imported
  emit (.importsSet importer.name imports.length)

end Loading

end ModuleAtlas
