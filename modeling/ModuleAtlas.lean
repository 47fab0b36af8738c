import ModuleAtlas.Atlas.Command
import ModuleAtlas.Document.Form
import ModuleAtlas.Hierarchy.Dot
import ModuleAtlas.Proofs.Atomicity
import ModuleAtlas.Proofs.Commutation
import ModuleAtlas.Proofs.Completion
import ModuleAtlas.Proofs.Convergence
import ModuleAtlas.Proofs.DotText
import ModuleAtlas.Proofs.Export
import ModuleAtlas.Proofs.Guards
import ModuleAtlas.Proofs.Indexes
import ModuleAtlas.Proofs.Insertion
import ModuleAtlas.Proofs.Layers
import ModuleAtlas.Proofs.Levels
import ModuleAtlas.Proofs.OwnerChain
import ModuleAtlas.Proofs.OwnerSearch
import ModuleAtlas.Proofs.Permanence
import ModuleAtlas.Proofs.Projects
import ModuleAtlas.Proofs.Provenance
import ModuleAtlas.Proofs.RoundTrip
import ModuleAtlas.Proofs.Staleness
import ModuleAtlas.Proofs.Verbosity
import ModuleAtlas.Proofs.Walk
import ModuleAtlas.Proofs.Wiring
