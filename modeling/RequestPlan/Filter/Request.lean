import RequestPlan.FieldOwner
import RequestPlan.Filter.Basic
import RequestPlan.Request

/-!
# The filters of a request

A namespaced parameter filters the one owner that its field stands for. A general parameter filters
every member that owns its key; only if there is none, it filters the owner that its key stands for.

* `ofNamespaced`, `ofGeneral`: the filters of one parameter;
* `allNamespaced`, `allGeneral`: those of all parameters of a class, in request order.
-/

namespace RequestPlan.Filter

/-- One filter for each owner of a field, all with the same value. -/
def ofOwners (v : Vocabulary) (owners : List FieldOwner) (value : RawValue)
    (connective : Connective) : Except Error (List Filter) :=
  owners.mapM fun owner => Filter.ofRaw v owner.member.tableAlias owner.field value connective

/-- The filters of a namespaced parameter: at most one, on the owner that its field stands for. -/
def ofNamespaced (v : Vocabulary) (closure : Closure) (key : String) (value : RawValue) :
    Except Error (List Filter) :=
  if value.latest = .null then .ok []
  else do
    let field ← v.fieldOf closure.root.entity.tag key
    ofOwners v (closure.resolve? closure.root field).toList value.latest .and

/-- The owners that a general parameter filters: every member that owns its key, or else the single
owner that the key stands for. -/
def generalOwners (closure : Closure) (key : String) : List FieldOwner :=
  match closure.owners key with
  | [] => (closure.resolve? closure.root key).toList
  | owners => owners

/-- How general filters combine: with relations joined, one match anywhere is enough. -/
def generalConnective (closure : Closure) : Connective :=
  if closure.isActive then .or else .and

/-- The filters of a general parameter. -/
def ofGeneral (v : Vocabulary) (closure : Closure) (key : String) (value : RawValue) :
    Except Error (List Filter) :=
  if value.latest = .null then .ok []
  else ofOwners v (generalOwners closure key) value.latest (generalConnective closure)

/-- The filters of all namespaced parameters, in request order. -/
def allNamespaced (v : Vocabulary) (closure : Closure) (parameters : KeyedList RawValue) :
    Except Error (List Filter) :=
  List.flatten <$> parameters.entries.mapM fun entry => ofNamespaced v closure entry.1 entry.2

/-- The filters of all general parameters, in request order. -/
def allGeneral (v : Vocabulary) (closure : Closure) (parameters : KeyedList RawValue) :
    Except Error (List Filter) :=
  List.flatten <$> parameters.entries.mapM fun entry => ofGeneral v closure entry.1 entry.2

end RequestPlan.Filter
