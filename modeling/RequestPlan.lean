import RequestPlan.Catalogue.Schema
import RequestPlan.QueryPlan
import RequestPlan.Proofs.FirstOccurrences
import RequestPlan.Proofs.Outcome
import RequestPlan.Proofs.RelationPath
import RequestPlan.Proofs.Walk
import RequestPlan.Proofs.JoinGraph
import RequestPlan.Proofs.Listing
import RequestPlan.Proofs.ResolvedChains
import RequestPlan.Proofs.FieldResolution
import RequestPlan.Proofs.FilterContributions
import RequestPlan.Proofs.CompiledPlan
import RequestPlan.Proofs.PlanFilters
import RequestPlan.Proofs.GraphExtension
import RequestPlan.Proofs.CanonicalChains
import RequestPlan.Proofs.JoinColumns
import RequestPlan.Proofs.ClosureExtension
import RequestPlan.Proofs.PlanExtension
import RequestPlan.Proofs.IndependentParameters
import RequestPlan.Proofs.EquivalentRequests
import RequestPlan.Proofs.QualifiedKeys
import RequestPlan.Proofs.SearchOrder
import RequestPlan.Proofs.ClosedSchema
import RequestPlan.Proofs.CatalogueChecks
import RequestPlan.Proofs.CompileOutcome
import RequestPlan.Proofs.DecimalDigits
import RequestPlan.Proofs.NearestBinary64
import RequestPlan.Proofs.NumberCoercion
import RequestPlan.Proofs.ImpliedRelations
import RequestPlan.Proofs.CatalogueSchema
import RequestPlan.Proofs.ForeignKeyJoins
import RequestPlan.Proofs.EagerLoadTree
import RequestPlan.Proofs.AliasNumbers
import RequestPlan.Proofs.LiteralCoercion
import RequestPlan.Proofs.EqualNumbers
import RequestPlan.Proofs.Binary64Rounding
import RequestPlan.Proofs.DoubleDigits
import RequestPlan.Proofs.KeyAccounts
import RequestPlan.Proofs.KeyOrder
import RequestPlan.Proofs.OrderClauses
import RequestPlan.Proofs.Patterns
import RequestPlan.Proofs.SearchDepth
import RequestPlan.Proofs.AlikeEntities
import RequestPlan.Proofs.AliasAllocation
import RequestPlan.Proofs.ListEntries
import RequestPlan.Proofs.CapitalisedWords
import RequestPlan.Proofs.SnakeCaseNames
