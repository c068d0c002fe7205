import CatalogQuery.Catalog.Like
import CatalogQuery.Catalog.Regex
import CatalogQuery.Catalog.Sample
import CatalogQuery.Catalog.Search
import CatalogQuery.Catalog.Store
import CatalogQuery.Decimal.Shortest
import CatalogQuery.Filter.Build
import CatalogQuery.Filter.Compiler
import CatalogQuery.Filter.Config
import CatalogQuery.Filter.Error
import CatalogQuery.Filter.Expression
import CatalogQuery.Filter.Field
import CatalogQuery.Filter.Handler
import CatalogQuery.Filter.Join
import CatalogQuery.Filter.Leaf
import CatalogQuery.Filter.Operator
import CatalogQuery.Filter.Payload
import CatalogQuery.Filter.Predicate
import CatalogQuery.Filter.Sample
import CatalogQuery.Filter.Specification
import CatalogQuery.Filter.WhereArgs
import CatalogQuery.Journal
import CatalogQuery.Json.Number
import CatalogQuery.Json.Read
import CatalogQuery.Json.Value
import CatalogQuery.Json.Write
import CatalogQuery.Text.CodeRanges
import CatalogQuery.Text.GraphemeExtend
import CatalogQuery.Text.Printable
import CatalogQuery.Text.Quoted
import CatalogQuery.Proofs.JoinGraph
import CatalogQuery.Proofs.LeafCompile
import CatalogQuery.Proofs.Refinement
import CatalogQuery.Proofs.Acceptance
import CatalogQuery.Proofs.LikeMatch
import CatalogQuery.Proofs.Semantics
import CatalogQuery.Proofs.Evaluation
import CatalogQuery.Proofs.Disjunction
import CatalogQuery.Proofs.CreatedJoins
import CatalogQuery.Proofs.CommitHistory
import CatalogQuery.Proofs.WhereArgsEncoding
import CatalogQuery.Proofs.Complement
import CatalogQuery.Proofs.Paging
import CatalogQuery.Proofs.FreshIds
import CatalogQuery.Proofs.LikeRegex
import CatalogQuery.Proofs.Comparisons
import CatalogQuery.Proofs.ChildPath
import CatalogQuery.Proofs.Registration
