import SceneForge.Compile.Schedule
import SceneForge.Main
import SceneForge.Proofs.Build.Opening
import SceneForge.Proofs.Catalog.Declarations
import SceneForge.Proofs.Catalog.Layout
import SceneForge.Proofs.Catalog.Loading
import SceneForge.Proofs.Compile.Composition
import SceneForge.Proofs.Compile.Convergence
import SceneForge.Proofs.Compile.Delivery
import SceneForge.Proofs.Compile.Failure
import SceneForge.Proofs.Compile.Lights
import SceneForge.Proofs.Compile.Numbers
import SceneForge.Proofs.Compile.Recording
import SceneForge.Proofs.Compile.References
import SceneForge.Proofs.Compile.Registry
import SceneForge.Proofs.Compile.Rotations
import SceneForge.Proofs.Compile.RoundTrip
import SceneForge.Proofs.Compile.Serializable
import SceneForge.Proofs.Compile.Soundness
import SceneForge.Proofs.Compile.Sparing
import SceneForge.Proofs.Compile.TwoPasses
import SceneForge.Proofs.Compile.Unrelated
import SceneForge.Proofs.Container.Framing
import SceneForge.Proofs.Cursor.Sessions
import SceneForge.Proofs.Document.Forms
import SceneForge.Proofs.Document.Parsing
import SceneForge.Proofs.Files.Stopping
import SceneForge.Proofs.Material.Integers
import SceneForge.Proofs.Material.Overrides
import SceneForge.Proofs.Scene.Acceptance
import SceneForge.Proofs.Scene.Ending
import SceneForge.Proofs.Scene.NormalForms
