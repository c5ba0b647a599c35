import Shader.Builder.Lemmas
import Shader.Main
import Shader.Program.Lemmas
import Shader.Proofs.Answers
import Shader.Proofs.Frame
import Shader.Script.Run
import Shader.Proofs.Steps
import Shader.Proofs.Numbering
import Shader.Proofs.Meaning
import Shader.Proofs.Simulation
import Shader.Proofs.Moments
import Shader.Proofs.Depth
import Shader.Proofs.Typing
import Shader.Proofs.Template
import Shader.Proofs.History
import Shader.Proofs.Scanning
import Shader.Proofs.Layout
import Shader.Proofs.Document
import Shader.Proofs.Statement
import Shader.Proofs.Reading
import Shader.Proofs.Evaluation
import Shader.Proofs.Compilation
import Shader.Proofs.Deeds
import Shader.Proofs.Catalogue
import Shader.Proofs.Texts
import Shader.Proofs.Nesting
import Shader.Proofs.Sections
import Shader.Proofs.Clashes
import Shader.Proofs.Rollback
import Shader.Proofs.Attribution
import Shader.Proofs.Rounding
import Shader.Proofs.Tenths
import Shader.Proofs.Elements
import Shader.Proofs.Files
import Shader.Proofs.Delivery
import Shader.Proofs.Acceptance
import Shader.Proofs.Passing
import Shader.Proofs.Listing
import Shader.Proofs.Registry
import Shader.Proofs.Ranges
import Shader.Proofs.Printing
import Shader.Proofs.Limits
import Shader.Proofs.Literals
import Shader.Proofs.FileSystem
import Shader.Proofs.Completion
