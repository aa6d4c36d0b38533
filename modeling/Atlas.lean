import Atlas.Main
import Atlas.Settings.Record
import Atlas.Proofs.Identifiers
import Atlas.Proofs.Firsts
import Atlas.Proofs.Result
import Atlas.Proofs.Members
import Atlas.Proofs.Graph
import Atlas.Proofs.Graph.Growth
import Atlas.Proofs.Kubernetes.Inventory
import Atlas.Proofs.Files.Tree
import Atlas.Proofs.Scan
import Atlas.Proofs.Files.Write
import Atlas.Proofs.Swagger.RequestFiles
import Atlas.Proofs.Golang.Graph
import Atlas.Proofs.Diagram.PlantUml
import Atlas.Proofs.Sql.Diagram
import Atlas.Proofs.Analysis.Nesting
import Atlas.Proofs.Analysis.Phases
import Atlas.Proofs.Diagram.Pieces
import Atlas.Proofs.Diagram.Layout
import Atlas.Proofs.Diagram.Aliases
import Atlas.Proofs.Diagram.Declarations
import Atlas.Proofs.Sql.ForeignKeys
import Atlas.Proofs.Sql.Graph
import Atlas.Proofs.Sql.Postgres
import Atlas.Proofs.Sql.MySql
import Atlas.Proofs.Sql.Inheritance
import Atlas.Proofs.Kubernetes.Graph
import Atlas.Proofs.Identifiers.Keys
import Atlas.Proofs.Identifiers.Log
import Atlas.Proofs.Kubernetes.Diagram
import Atlas.Proofs.Docker.Nodes
import Atlas.Proofs.Docker.Dependencies
import Atlas.Proofs.Docker.Aliases
import Atlas.Proofs.Laravel.Controllers
import Atlas.Proofs.Laravel.Connections
import Atlas.Proofs.Laravel.Chains
import Atlas.Proofs.Pattern
import Atlas.Proofs.Laravel.Calls
import Atlas.Proofs.Nextjs.Elements
import Atlas.Proofs.Nextjs.Usages
import Atlas.Proofs.Nextjs.Sources
import Atlas.Proofs.Golang.Classes
import Atlas.Proofs.Golang.Containment
import Atlas.Proofs.Markdown
import Atlas.Proofs.Golang.Entries
import Atlas.Proofs.Golang.Signature
import Atlas.Proofs.Golang.Phrase
import Atlas.Proofs.Golang.Grammar.Type
import Atlas.Proofs.Golang.Grammar.Statement
import Atlas.Proofs.Golang.Grammar.File
import Atlas.Proofs.Golang.Implements
import Atlas.Proofs.Docker.Dockerfile
import Atlas.Proofs.Docker.Stages
import Atlas.Proofs.Swagger.Endpoints
import Atlas.Proofs.Swagger.Sample
import Atlas.Proofs.Files.Clean
import Atlas.Proofs.Settings
import Atlas.Proofs.Swagger.Query
import Atlas.Proofs.Swagger.Reread
import Atlas.Proofs.Diagram.Quotes
import Atlas.Proofs.Nextjs.Calls
import Atlas.Proofs.Command.Overrides
import Atlas.Proofs.Words
import Atlas.Proofs.Nextjs.Routes
import Atlas.Proofs.Nextjs.Layouts
import Atlas.Proofs.Kubernetes.Documents
import Atlas.Proofs.Docker.Lines
import Atlas.Proofs.Docker.Compose
import Atlas.Proofs.Docker.Variables
import Atlas.Proofs.Nested
import Atlas.Proofs.Sql.Arguments
import Atlas.Proofs.Sql.Columns
import Atlas.Proofs.Golang.Outline
import Atlas.Proofs.Golang.Receivers
import Atlas.Proofs.Golang.Tree
import Atlas.Proofs.Golang.Comments
import Atlas.Proofs.Golang.Drawing
