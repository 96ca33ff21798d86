import AttackSurface.Cflow.Tree
import AttackSurface.Degree
import AttackSurface.Gprof.Aggregate
import AttackSurface.Graph.Fragments
import AttackSurface.Graph.Reconcile
import AttackSurface.JavaCalls.Listing
import AttackSurface.Log
import AttackSurface.Settings.Layers
import AttackSurface.Surface
import AttackSurface.Proofs.Graph.Nodes
import AttackSurface.Proofs.Graph.Edges
import AttackSurface.Proofs.Graph.Removal
import AttackSurface.Proofs.Graph.Union
import AttackSurface.Proofs.Graph.Signs
import AttackSurface.Proofs.Graph.Rename
import AttackSurface.Proofs.Graph.Reconcile
import AttackSurface.Proofs.Graph.Built
import AttackSurface.Proofs.Graph.Loaded
import AttackSurface.Proofs.Graph.Pairing
import AttackSurface.Proofs.Graph.Merge
import AttackSurface.Proofs.Graph.Quotient
import AttackSurface.Proofs.Graph.Events
import AttackSurface.Proofs.Graph.Listing
import AttackSurface.Proofs.Graph.Grown
import AttackSurface.Proofs.Cflow.Nesting
import AttackSurface.Proofs.Cflow.Damage
import AttackSurface.Proofs.Gprof.Aggregate
import AttackSurface.Proofs.Rank.Chain
import AttackSurface.Proofs.Rank.Convergence
import AttackSurface.Proofs.Gprof.Blocks
import AttackSurface.Proofs.Graph.Absorption
import AttackSurface.Proofs.Graph.Collapse
import AttackSurface.Proofs.Rank.Distribution
import AttackSurface.Proofs.Surface
import AttackSurface.Proofs.Graph.Components
import AttackSurface.Proofs.Graph.Provenance
import AttackSurface.Proofs.Graph.Carried
import AttackSurface.Proofs.Rank.Invariance
import AttackSurface.Proofs.Settings.Resolution
import AttackSurface.Proofs.Cflow.Printed
import AttackSurface.Proofs.Graph.Descendants
import AttackSurface.Proofs.Proximity
import AttackSurface.Proofs.Graph.Fragmentation
import AttackSurface.Proofs.Graph.Join
import AttackSurface.Proofs.Reports
import AttackSurface.Proofs.Gprof.Printed
import AttackSurface.Proofs.JavaCalls.Records
import AttackSurface.Proofs.Rank.Twins
import AttackSurface.Proofs.Graph.Degrees
import AttackSurface.Proofs.Graph.Insertion
import AttackSurface.Proofs.Graph.Functions
import AttackSurface.Proofs.Graph.Names
import AttackSurface.Proofs.Settings.RoundTrip
