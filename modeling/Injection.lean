import Injection.Analysis
import Injection.Container.Members
import Injection.Graph.Export
import Injection.Report.Document
import Injection.Report.Environment
import Injection.Session.Script
import Injection.Proofs.Equality
import Injection.Proofs.Resolution
import Injection.Proofs.Validation
import Injection.Proofs.Reordering
import Injection.Proofs.Overriding
import Injection.Proofs.Searching
import Injection.Proofs.Passage
import Injection.Proofs.Flattening
import Injection.Proofs.Holdings
import Injection.Proofs.Provenance
import Injection.Proofs.Singletons
import Injection.Proofs.Assignment
import Injection.Proofs.Reading
import Injection.Proofs.Accounting
import Injection.Proofs.Deferral
import Injection.Proofs.Rendering
import Injection.Proofs.Registration
import Injection.Proofs.Naming
import Injection.Proofs.HandleHistory
import Injection.Proofs.Capacity
import Injection.Proofs.Environment
import Injection.Proofs.ProbePaths
import Injection.Proofs.Retracing
import Injection.Proofs.Growth
import Injection.Proofs.Operation
