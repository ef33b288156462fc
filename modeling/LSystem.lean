import LSystem.Document.Session
import LSystem.Document.Wording
import LSystem.Journal.Report
import LSystem.Scalar.Exact
import LSystem.Proofs.Document.Entries
import LSystem.Proofs.Document.Settings
import LSystem.Proofs.Document.Sketches
import LSystem.Proofs.Grammar.Completeness
import LSystem.Proofs.Grammar.Readapting
import LSystem.Proofs.Plane.Runs
import LSystem.Proofs.Studio.Adoption
import LSystem.Proofs.Studio.Dragon
import LSystem.Proofs.Studio.Framing
import LSystem.Proofs.Studio.Outcome
import LSystem.Proofs.Studio.Renaming
import LSystem.Proofs.Studio.Scaling
import LSystem.Proofs.Turtle.Entering
import LSystem.Proofs.Turtle.Nesting
import LSystem.Proofs.Turtle.Sharing
import LSystem.Proofs.Plane.Shares
import LSystem.Proofs.Plane.Shape
import LSystem.Proofs.Grammar.Substitution
import LSystem.Proofs.Grammar.Lengths
import LSystem.Proofs.Plane.Extremes
import LSystem.Proofs.Plane.Scanning
