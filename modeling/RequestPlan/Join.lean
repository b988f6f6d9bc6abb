import RequestPlan.Closure
import RequestPlan.Schema

/-!
# Joins

A join attaches an aliased table to an alias that is already in the plan. To-one relations are
joined from the left and to-many relations from the right; the key that a relation leaves open is
the primary key of its table.

* `Join`: the clauses;
* `Join.along`: the join that follows a relation.
-/

namespace RequestPlan

/-- The kinds of outer join. -/
inductive JoinDirection where
  | left
  | right
  deriving DecidableEq, Repr

/-- A join on `sourceAlias.sourceKey = targetAlias.targetKey`. -/
structure Join where
  direction : JoinDirection
  sourceAlias : String
  sourceKey : String
  targetTable : String
  targetAlias : String
  targetKey : String
  deriving DecidableEq, Repr

/-- The join that follows a relation from a member to its target, which gets the given alias. -/
def Join.along (source : Member) (relation : Relation) (target : Entity) (targetAlias : String) :
    Except Error Join :=
  match relation.kind with
  | .toOne =>
    .ok
      { direction := .left
        sourceAlias := source.tableAlias
        sourceKey := relation.foreignKey
        targetTable := target.tableName
        targetAlias
        targetKey := relation.namedKey?.getD target.primaryKey }
  | .toMany =>
    .ok
      { direction := .right
        sourceAlias := source.tableAlias
        sourceKey := relation.namedKey?.getD source.entity.primaryKey
        targetTable := target.tableName
        targetAlias
        targetKey := relation.foreignKey }
  | .unknown kind => .error (.unknownKind kind relation)

namespace Join

variable {source : Member} {relation : Relation} {target : Entity} {targetAlias : String}

/-- There is a join exactly along the relations whose kind has a meaning. -/
theorem along_eq_error_iff {e : Error} :
    along source relation target targetAlias = .error e ↔
      ∃ kind, relation.kind = .unknown kind ∧ e = .unknownKind kind relation := by
  cases h : relation.kind <;> simp [along, h, eq_comm]

theorem aliases_of_along_eq_ok {join : Join}
    (h : along source relation target targetAlias = .ok join) :
    join.sourceAlias = source.tableAlias ∧ join.targetAlias = targetAlias ∧
      join.targetTable = target.tableName := by
  cases hk : relation.kind <;> simp only [along, hk, Except.ok.injEq, reduceCtorEq] at h <;>
    simp [← h]

end Join

end RequestPlan
