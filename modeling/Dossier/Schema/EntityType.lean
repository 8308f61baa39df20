import Dossier.Schema.Field

/-!
# Entity types and schemas

An entity type is a list of fields with distinct names, together with the names
of the type, the field that holds the identifier, and a tag by which registries
pick the type. Types are equal if both their names are. A schema interprets the
keys by which values and fields name types, so types may refer to themselves
and to each other.
-/

namespace Dossier

/-- A key and the value under it that marks a type. -/
structure TypeTag where
  key : String
  value : String
  deriving DecidableEq, Repr

structure EntityType where
  /-- The name in messages. -/
  name : String
  /-- The name in identifiers and documents. -/
  typeName : String
  /-- The property that holds the identifier. -/
  idField : Option String := none
  tag : Option TypeTag := none
  /-- Whether properties that are not declared are kept. -/
  isOpen : Bool := false
  fields : List Field := []
  distinct : (fields.map (·.name)).Nodup := by decide

/-- A field of a name that the type has already. -/
structure DuplicateField where
  field : String
  typeName : String
  deriving DecidableEq, Repr

def DuplicateField.message (e : DuplicateField) : String :=
  "duplicate field '" ++ e.field ++ "' on " ++ e.typeName

namespace EntityType

/-- Types are told apart by their two names. -/
def sameAs (a b : EntityType) : Bool := a.name == b.name && a.typeName == b.typeName

def field? (t : EntityType) (name : String) : Option Field :=
  t.fields.find? (·.name = name)

/-- The type with a field more at its end. -/
def addField (t : EntityType) (f : Field) : Except DuplicateField EntityType :=
  if h : f.name ∈ t.fields.map (·.name) then .error ⟨f.name, t.name⟩
  else .ok { t with
    fields := t.fields ++ [f]
    distinct := by
      rw [List.map_append, List.map_singleton]
      exact List.nodup_append.2 ⟨t.distinct, by simp, fun name found _ last equal =>
        h (by simp_all)⟩ }

/-- The type of a list of fields, if their names are distinct. -/
def ofFields (name typeName : String) (fields : List Field) : Except DuplicateField EntityType :=
  fields.foldlM addField { name, typeName }

/-- The tag, if its key is not a declared field as well. -/
def separateTag? (t : EntityType) : Option TypeTag :=
  t.tag.filter fun tag => (t.field? tag.key).isNone

/-- Lays out the properties of an entity: the tag if its key is not a field, the declared
fields in order, and the others. -/
def arrange {α : Type} (t : EntityType) (ofTag : String → α) (values extras : Table α) :
    Table α :=
  let tag := match t.separateTag? with
    | some tag => [(tag.key, ofTag tag.value)]
    | none => []
  let declared := t.fields.filterMap fun f => (values.get? f.name).map (f.name, ·)
  Table.ofEntries (tag ++ declared ++ extras)

end EntityType

/-- The types that keys stand for. -/
structure Schema where
  typeOf : TypeKey → EntityType
  /-- How deep defaults may nest: the value of a default may need defaults itself. -/
  defaultNesting : Nat := 64

end Dossier
