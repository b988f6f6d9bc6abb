import RequestPlan.FieldOwner
import RequestPlan.Request

/-!
# Row orders

The order that the control parameters ask for: random, or by a list of fields in one direction.

* `OrderDirection`, `OrderClause`, `RowOrder`: orders;
* `RowOrder.checkConflict`: a request asks for at most one kind of order;
* `RowOrder.ofControl`: the order of a request.
-/

namespace RequestPlan

/-- The direction of an order. -/
inductive OrderDirection where
  | ascending
  | descending
  deriving DecidableEq, Repr

/-- The direction that a value asks for: descending for the word "desc" in any letter case. -/
def OrderDirection.ofRaw : RawValue → Except Error OrderDirection
  | .null => .ok ascending
  | .text text =>
    .ok (if Text.lower text.toList = "desc".toList then descending else ascending)
  | value => .error (.directionNotText value)

/-- An order by a field of an aliased table. -/
structure OrderClause where
  tableAlias : String
  field : String
  direction : OrderDirection
  deriving DecidableEq, Repr

/-- An order of rows. -/
inductive RowOrder where
  | random
  | byFields (clauses : List OrderClause) (clauses_ne_nil : clauses ≠ [])
  deriving DecidableEq

namespace RowOrder

/-- The order by the given clauses, none if there are none. -/
def ofClauses? (clauses : List OrderClause) : Option RowOrder :=
  if h : clauses = [] then none else some (byFields clauses h)

/-- Fails if the control parameters ask for an order by fields and for a random order. -/
def checkConflict (v : Vocabulary) (control : KeyedList RawValue) : Except Error Unit :=
  match control.get? v.orderKey, control.get? v.randomKey with
  | some fields, some flag => .error (.conflictingOrder (v.orderKey, fields) (v.randomKey, flag))
  | _, _ => .ok ()

/-- The direction that the control parameters ask for. -/
def direction (v : Vocabulary) (control : KeyedList RawValue) : Except Error OrderDirection :=
  OrderDirection.ofRaw ((control.get? v.directionKey).elim .null RawValue.latest)

/-- The clauses for the fields of a comma-separated list, names without an owner left out. -/
def clausesOf (closure : Closure) (direction : OrderDirection) (fields : String) :
    List OrderClause :=
  (Text.entries fields).filterMap fun name =>
    (closure.resolve? closure.root name).map fun owner =>
      ⟨owner.member.tableAlias, owner.field, direction⟩

/-- The order that the control parameters ask for, none if there is nothing to order by. -/
def ofControl (v : Vocabulary) (closure : Closure) (control : KeyedList RawValue) :
    Except Error (Option RowOrder) := do
  checkConflict v control
  if control.contains v.randomKey then return some random
  match control.get? v.orderKey with
  | none => return none
  | some fields =>
    let direction ← direction v control
    return ofClauses? (clausesOf closure direction fields.joined)

theorem clausesOf_append_comma (closure : Closure) (direction : OrderDirection) (a b : String) :
    clausesOf closure direction (a ++ "," ++ b) =
      clausesOf closure direction a ++ clausesOf closure direction b := by
  simp [clausesOf, Text.entries_append_comma]

end RowOrder

end RequestPlan
