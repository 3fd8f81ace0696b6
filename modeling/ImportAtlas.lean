import ImportAtlas.Http.Api
import ImportAtlas.Main
import ImportAtlas.Proofs.Analysis
import ImportAtlas.Proofs.Checkout.Address
import ImportAtlas.Proofs.Checkout.Catalog
import ImportAtlas.Proofs.Checkout.Depot
import ImportAtlas.Proofs.Checkout.GithubUrl
import ImportAtlas.Proofs.Checkout.Locality
import ImportAtlas.Proofs.Checkout.Observation
import ImportAtlas.Proofs.Checkout.Reading
import ImportAtlas.Proofs.Checkout.Retry
import ImportAtlas.Proofs.Checkout.Session
import ImportAtlas.Proofs.Config.Loading
import ImportAtlas.Proofs.Discovery.Addition
import ImportAtlas.Proofs.Discovery.Following
import ImportAtlas.Proofs.Discovery.Order
import ImportAtlas.Proofs.Discovery.Refusal
import ImportAtlas.Proofs.Graph.Addition
import ImportAtlas.Proofs.Graph.Containment
import ImportAtlas.Proofs.Graph.Exclusion
import ImportAtlas.Proofs.Graph.Grouping
import ImportAtlas.Proofs.Graph.Isolation
import ImportAtlas.Proofs.Graph.Restriction
import ImportAtlas.Proofs.Graph.SuffixOrder
import ImportAtlas.Proofs.Host.Canonical
import ImportAtlas.Proofs.Host.Change
import ImportAtlas.Proofs.Host.Descent
import ImportAtlas.Proofs.Host.Making
import ImportAtlas.Proofs.Host.Parent
import ImportAtlas.Proofs.Host.Reach
import ImportAtlas.Proofs.Http.Agreement
import ImportAtlas.Proofs.Http.CloneStatus
import ImportAtlas.Proofs.Http.FileStatus
import ImportAtlas.Proofs.Json.Graph
import ImportAtlas.Proofs.Render.Dot
import ImportAtlas.Proofs.Render.Table
import ImportAtlas.Proofs.Render.Tree
import ImportAtlas.Proofs.Resolution.Base
import ImportAtlas.Proofs.Resolution.Folder
import ImportAtlas.Proofs.Resolution.Outside
import ImportAtlas.Proofs.Resolution.Precedence
import ImportAtlas.Proofs.Resolution.Relocation
import ImportAtlas.Proofs.Syntax.Comments
import ImportAtlas.Proofs.Syntax.Line
import ImportAtlas.Proofs.Syntax.Traversal
