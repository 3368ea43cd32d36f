import Schemata.Json.Equality
import Schemata.Main
import Schemata.Proofs.Build
import Schemata.Proofs.Building.Acceptance
import Schemata.Proofs.Building.Alike
import Schemata.Proofs.Building.Completion
import Schemata.Proofs.Building.Descent
import Schemata.Proofs.Building.Finished
import Schemata.Proofs.Building.Grammar
import Schemata.Proofs.Building.Levels
import Schemata.Proofs.Building.Location
import Schemata.Proofs.Building.NullTypes
import Schemata.Proofs.Building.Outcome
import Schemata.Proofs.Building.Precedence
import Schemata.Proofs.Building.Simulation
import Schemata.Proofs.Building.Success
import Schemata.Proofs.Building.Termination
import Schemata.Proofs.Command.Termination
import Schemata.Proofs.Command.Trial
import Schemata.Proofs.FileSystem.Directories
import Schemata.Proofs.FileSystem.Path
import Schemata.Proofs.FileSystem.Place
import Schemata.Proofs.FileSystem.Storing
import Schemata.Proofs.Grammar
import Schemata.Proofs.Inheritance
import Schemata.Proofs.Inheritance.Associativity
import Schemata.Proofs.Inheritance.Growth
import Schemata.Proofs.Json.Equality
import Schemata.Proofs.Json.FloatRange
import Schemata.Proofs.Json.FloatText
import Schemata.Proofs.Json.Members
import Schemata.Proofs.Json.NumberText
import Schemata.Proofs.Json.NumberTokens
import Schemata.Proofs.Json.NumberWords
import Schemata.Proofs.Json.NumericEquality
import Schemata.Proofs.Json.Reader
import Schemata.Proofs.Json.Reordered
import Schemata.Proofs.Json.RoundTrip
import Schemata.Proofs.Json.StringText
import Schemata.Proofs.Json.Tree
import Schemata.Proofs.Json.Walk
import Schemata.Proofs.Name
import Schemata.Proofs.Name.Below
import Schemata.Proofs.Name.Canonical
import Schemata.Proofs.Name.Join
import Schemata.Proofs.Node
import Schemata.Proofs.NullTypes
import Schemata.Proofs.Numeric.Nearest
import Schemata.Proofs.Numeric.Rounding
import Schemata.Proofs.Numeric.Shortest
import Schemata.Proofs.Pointer
import Schemata.Proofs.Position
import Schemata.Proofs.Registry.Acceptance
import Schemata.Proofs.Registry.Alias
import Schemata.Proofs.Registry.Answer
import Schemata.Proofs.Registry.Blame
import Schemata.Proofs.Registry.Cached
import Schemata.Proofs.Registry.CachedTermination
import Schemata.Proofs.Registry.Chain
import Schemata.Proofs.Registry.Document
import Schemata.Proofs.Registry.Entries
import Schemata.Proofs.Registry.Fetch
import Schemata.Proofs.Registry.Grammar
import Schemata.Proofs.Registry.Idempotence
import Schemata.Proofs.Registry.Independence
import Schemata.Proofs.Registry.Location
import Schemata.Proofs.Registry.Misled
import Schemata.Proofs.Registry.NullTypes
import Schemata.Proofs.Registry.Precedence
import Schemata.Proofs.Registry.Ranking
import Schemata.Proofs.Registry.Reachable
import Schemata.Proofs.Registry.Readback
import Schemata.Proofs.Registry.Relocation
import Schemata.Proofs.Registry.Runaway
import Schemata.Proofs.Registry.Session
import Schemata.Proofs.Registry.Termination
import Schemata.Proofs.Rewriting
import Schemata.Proofs.Route
import Schemata.Proofs.Store.Confinement
import Schemata.Proofs.Store.Directory
import Schemata.Proofs.Store.Keys
import Schemata.Proofs.Store.Memory
import Schemata.Proofs.Store.Names
import Schemata.Proofs.Validation.AllowedKeys
import Schemata.Proofs.Validation.Bounds
import Schemata.Proofs.Validation.Collection
import Schemata.Proofs.Validation.Errors
import Schemata.Proofs.Validation.FallThrough
import Schemata.Proofs.Validation.KeyOrder
import Schemata.Proofs.Validation.Log
import Schemata.Proofs.Validation.Paths
import Schemata.Proofs.Validation.Recall
import Schemata.Proofs.Validation.Relaxation
import Schemata.Proofs.Validation.RoundTrip
import Schemata.Proofs.Validation.Satisfaction
import Schemata.Proofs.Validation.Sharing
import Schemata.Proofs.Validation.Union
import Schemata.Proofs.Validation.Uniqueness
import Schemata.Proofs.Validation.Validator
import Schemata.Proofs.Validation.Weakening
import Schemata.Proofs.Yaml.Conversion
import Schemata.Store.Memory
