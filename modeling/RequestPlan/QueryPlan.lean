import RequestPlan.Filter.Request
import RequestPlan.JoinGraph
import RequestPlan.RowOrder

/-!
# Query plans

A query plan says which tables to join, what to filter and order on, what to fetch along and which
columns to select. Compiling a request makes one.

* `Projection`, `QueryPlan`: plans;
* `projectionsOf`: the columns that a plan with joins selects;
* `QueryPlan.compile`: the plan of a request.
-/

namespace RequestPlan

/-- A selected column. -/
inductive Projection where
  /-- One column of an aliased table, under a label. -/
  | column (tableAlias field label : String)
  /-- All columns of an aliased table, without labels. -/
  | allColumns (tableAlias : String)
  deriving DecidableEq, Repr

namespace Projection

/-- The name that stands for all columns of a table. -/
def allColumnsField : String := "*"

/-- The alias of the table whose columns are selected. -/
def tableAlias : Projection → String
  | column tableAlias _ _ => tableAlias
  | allColumns tableAlias => tableAlias

/-- The selected column, or the name that stands for all of them. -/
def field : Projection → String
  | column _ field _ => field
  | allColumns _ => allColumnsField

/-- The label of a selected column. -/
def label? : Projection → Option String
  | column _ _ label => some label
  | allColumns _ => none

end Projection

/-- A compiled request. -/
structure QueryPlan where
  rootEntity : String
  rootAlias : String
  joins : List Join
  filters : List Filter
  order : Option RowOrder
  eagerLoads : List String
  eagerLoadTree : List EagerLoad
  projections : List Projection
  deriving DecidableEq

namespace QueryPlan

/-- The filters that must all hold. -/
def andFilters (plan : QueryPlan) : List Filter :=
  plan.filters.filter fun f => f.connective = .and

/-- The filters of which at least one must hold. -/
def orFilters (plan : QueryPlan) : List Filter :=
  plan.filters.filter fun f => f.connective = .or

end QueryPlan

/-- The projection of a field of the root, labelled with its alias and its name. -/
def Projection.labelled (root : Member) (field : String) : Projection :=
  column root.tableAlias field (root.tableAlias ++ "_" ++ field)

/-- The projections of a plan with joins: each searchable field of the root under a label of its
own, so that joined columns cannot hide it, and then all columns of the root. -/
def projectionsOf (root : Member) : List Projection :=
  root.entity.searchable.toList.map (Projection.labelled root) ++ [.allColumns root.tableAlias]

/-- The plan of a request for the given root. -/
def QueryPlan.compile (schema : Schema) (root : Candidate) (parameters : KeyedList RawValue)
    (v : Vocabulary) : Except Error QueryPlan := do
  let entity ← schema.root root
  let request := Request.classify v entity.tag parameters
  RowOrder.checkConflict v request.control
  let requested := (request.control.get? v.relationsKey).map RawValue.joined
  let graph ← JoinGraph.build schema entity requested
  let namespaced ← Filter.allNamespaced v graph.closure request.namespaced
  let general ← Filter.allGeneral v graph.closure request.general
  let order ← RowOrder.ofControl v graph.closure request.control
  return {
    rootEntity := entity.name
    rootAlias := graph.closure.root.tableAlias
    joins := graph.joins
    filters := namespaced ++ general
    order
    eagerLoads := graph.eagerLoads
    eagerLoadTree := graph.eagerLoadTree
    projections := if graph.joins = [] then [] else projectionsOf graph.closure.root }

end RequestPlan
