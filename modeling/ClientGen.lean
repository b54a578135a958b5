import ClientGen.CommandLine.Arguments
import ClientGen.CommandLine.Session
import ClientGen.Declaration.Client
import ClientGen.Declaration.Enumeration
import ClientGen.Declaration.Structure
import ClientGen.Declaration.Union
import ClientGen.Dependency
import ClientGen.Dependency.Closure
import ClientGen.Error
import ClientGen.FileTree
import ClientGen.Generation
import ClientGen.Json
import ClientGen.Json.Number
import ClientGen.Text.Quoted
import ClientGen.Json.Reading
import ClientGen.Main
import ClientGen.Manifest
import ClientGen.Model
import ClientGen.Model.Closure
import ClientGen.Model.Dedication
import ClientGen.Model.Document
import ClientGen.Model.Error
import ClientGen.Model.Validity
import ClientGen.NameScope
import ClientGen.NameTable
import ClientGen.NameTable.Reservation
import ClientGen.Naming
import ClientGen.Proofs.Declaration
import ClientGen.Proofs.Dependency.Closure
import ClientGen.Proofs.Generation.References
import ClientGen.Proofs.Generation.Visits
import ClientGen.Proofs.Model
import ClientGen.Proofs.Model.Closure
import ClientGen.Proofs.Model.Validity
import ClientGen.Proofs.NameScope
import ClientGen.Proofs.Outcome
import ClientGen.Proofs.Reservation
import ClientGen.Proofs.Sorted
import ClientGen.Proofs.SourceFile.Lines
import ClientGen.Proofs.SourceFile.Record
import ClientGen.Proofs.SourceFile.TypeLines
import ClientGen.Proofs.SourceTree
import ClientGen.Proofs.Text
import ClientGen.Proofs.TypeMap
import ClientGen.Settings
import ClientGen.Shape
import ClientGen.ShapeId
import ClientGen.SortedMap
import ClientGen.SortedSet
import ClientGen.SourceFile
import ClientGen.SourceFile.Rendering
import ClientGen.SourceFile.Step
import ClientGen.SourceFile.Writing
import ClientGen.SourceTree
import ClientGen.Symbol
import ClientGen.Text
import ClientGen.Text.UpperCase
import ClientGen.TypeMap
import ClientGen.Version
import ClientGen.Version.Reading
import ClientGen.Vocabulary
import ClientGen.Proofs.Model.Document
import ClientGen.Proofs.TypeMap.Totality
import ClientGen.Proofs.Generation.Delivery
import ClientGen.Proofs.Model.Dedication
import ClientGen.Proofs.Model.Agreement
import ClientGen.Proofs.TypeMap.Agreement
import ClientGen.Proofs.Generation.Locality
import ClientGen.Proofs.Version.Reading
import ClientGen.Proofs.NameScope.Escaping
import ClientGen.Proofs.Version.Precedence
import ClientGen.Proofs.NamePlan
import ClientGen.Proofs.Reservation.Escaping
import ClientGen.Proofs.Model.Names
import ClientGen.Proofs.Reservation.Fields
import ClientGen.Proofs.Reservation.Identifiers
import ClientGen.Proofs.Model.Failures
import ClientGen.Proofs.TypeMap.Files
import ClientGen.Proofs.SourceFile.Safety
import ClientGen.Proofs.Declaration.Safety
import ClientGen.Proofs.Generation.Orderly
import ClientGen.Proofs.Generation.Failures
import ClientGen.Proofs.Generation.Paths
import ClientGen.Proofs.SourceTree.Uses
import ClientGen.Proofs.Manifest
import ClientGen.Proofs.Dependency.Order
import ClientGen.Proofs.Generation.Layers
import ClientGen.Proofs.ShapeId
import ClientGen.Proofs.Model.Reachability
import ClientGen.Proofs.NameScope.Calls
import ClientGen.Proofs.Reservation.Keeping
import ClientGen.Proofs.Dependency.Merging
import ClientGen.Proofs.SourceFile.Attempts
import ClientGen.Proofs.Version.Values
import ClientGen.Proofs.SourceFile.Imports
import ClientGen.Proofs.SourceTree.Failures
import ClientGen.Proofs.SourceFile.Cuts
import ClientGen.Proofs.SourceFile.Scopes
import ClientGen.Proofs.SourceFile.Layout
import ClientGen.Proofs.SourceFile.Literals
import ClientGen.Proofs.SourceFile.Documentation
import ClientGen.Proofs.Model.Frame
import ClientGen.Proofs.Model.Stability
import ClientGen.Proofs.Version.Sorting
import ClientGen.Proofs.Dependency.Comparison
import ClientGen.Proofs.Dependency.Loop
import ClientGen.Proofs.NameScope.Marking
import ClientGen.Proofs.Model.Members
