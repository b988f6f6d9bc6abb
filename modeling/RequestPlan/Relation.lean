import RequestPlan.Text.Quoted

/-!
# Relations

A relation leads from one entity to another along a foreign key. A to-one relation has its foreign
key on the table of its source, a to-many relation on the table of its target; the key at the other
end is the primary key there, unless the relation names another one.

* `RelationKind`, `Relation`: the descriptions;
* `Relation.namedKey?`: the referenced key, if the relation names one;
* `Relation.quoted`: a relation as messages show it.
-/

namespace RequestPlan

/-- The cardinality of a relation, seen from its source. A schema that was never checked may hold
kinds without a meaning. -/
inductive RelationKind where
  | toOne
  | toMany
  | unknown (name : String)
  deriving DecidableEq, Repr

/-- Whether the kind has a meaning. -/
def RelationKind.IsKnown : RelationKind → Prop
  | toOne | toMany => True
  | unknown _ => False

instance : DecidablePred RelationKind.IsKnown
  | .toOne | .toMany => isTrue trivial
  | .unknown _ => isFalse id

/-- The kind as messages show it. -/
def RelationKind.quoted : RelationKind → String
  | toOne => "<RelationKind.ToOne: 1>"
  | toMany => "<RelationKind.ToMany: 2>"
  | unknown name => Text.quoted name

/-- A named relation to a target entity. -/
structure Relation where
  name : String
  kind : RelationKind
  foreignKey : String
  targetEntity : String
  referencedKey : Option String
  deriving DecidableEq, Repr

namespace Relation

/-- The referenced key, if the relation names one; the empty name is no name. -/
def namedKey? (relation : Relation) : Option String :=
  relation.referencedKey.filter (· ≠ "")

/-- The relation as messages show it. -/
def quoted (relation : Relation) : String :=
  let name := Text.quoted relation.name
  let kind := relation.kind.quoted
  let foreignKey := Text.quoted relation.foreignKey
  let target := Text.quoted relation.targetEntity
  let referenced := (relation.referencedKey.map Text.quoted).getD "None"
  s!"RelationDescriptor(name={name}, kind={kind}, foreign_key={foreignKey}, " ++
    s!"target_entity={target}, referenced_key={referenced})"

end Relation

end RequestPlan
