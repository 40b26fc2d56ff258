import DispatchTree.Main
import DispatchTree.Screen.Reply
import DispatchTree.Tape.Serialized
import DispatchTree.Proofs.Simulation
import DispatchTree.Proofs.Screen.Run
import DispatchTree.Proofs.Primality.Decision
import DispatchTree.Proofs.Files.Build
import DispatchTree.Proofs.Files.Refusal
import DispatchTree.Proofs.Fingerprint.Identity
import DispatchTree.Proofs.Renaming.Opacity
import DispatchTree.Proofs.Declaration.Calls
import DispatchTree.Proofs.Declaration.Order
import DispatchTree.Proofs.Uniformity
import DispatchTree.Proofs.Ignored
import DispatchTree.Proofs.Settings.Layers
import DispatchTree.Proofs.Settings.Precedence
import DispatchTree.Proofs.Settings.Reading
import DispatchTree.Proofs.Files.Extension
import DispatchTree.Proofs.Settings.Loading
import DispatchTree.Proofs.Settings.Sections
import DispatchTree.Proofs.Settings.Variables
import DispatchTree.Proofs.Settings.Printed
import DispatchTree.Proofs.Settings.RootVariable
import DispatchTree.Proofs.Totality
import DispatchTree.Proofs.Primality.Fitting
import DispatchTree.Proofs.Silence
import DispatchTree.Proofs.Sighting
import DispatchTree.Proofs.Unnumbered
import DispatchTree.Proofs.Files.Insertion
import DispatchTree.Proofs.Declaration.Acceptance
import DispatchTree.Proofs.Report.Width
import DispatchTree.Proofs.Screen.Effect
import DispatchTree.Proofs.Report.Table
import DispatchTree.Proofs.Rendering
import DispatchTree.Proofs.Number.Digits
import DispatchTree.Proofs.Document.Tokens
import DispatchTree.Proofs.Document.Reading
import DispatchTree.Proofs.Tape.Serialized
import DispatchTree.Proofs.Report.Json
import DispatchTree.Proofs.Command.Messages
