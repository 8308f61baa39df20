import Dossier.Context

/-!
# The catalog's types

Grouping is a set of objects that share a context; documents name it by their
`type`. Object is something observed, with properties whose type is picked by
`xsi:type`, and with related objects. Address, File and URI are such
properties. `Catalog.register` makes all of them known to a context.
-/

namespace Dossier.Catalog

def groupingKey : TypeKey := ⟨"Grouping"⟩
def objectKey : TypeKey := ⟨"Object"⟩
def addressKey : TypeKey := ⟨"Address"⟩
def fileKey : TypeKey := ⟨"File"⟩
def uriKey : TypeKey := ⟨"URI"⟩

/-- The tag key of both registries of properties. -/
def propertiesTag : String := "xsi:type"

def objectProperties : String := "object-properties"

/-- Properties of extensions. The registry starts empty. -/
def domainSpecificProperties : String := "domain-specific-object-properties"

/-! ## Types -/

def groupingType : EntityType where
  name := "Grouping"
  typeName := "grouping"
  idField := some "id"
  fields :=
    [.constant "type" "grouping",
      .constant "spec_version" "2.1",
      .identifier "id" "grouping",
      .leaf "created_by_ref" (.identifier ["identity"]),
      (Field.leaf "created" .timestamp).withDefault .now,
      (Field.leaf "modified" .timestamp).withDefault (.sameAs "created"),
      .text "name",
      .text "description",
      (Field.text "context").require,
      (Field.leaf "object_refs" (.identifier [])).require.list,
      .leaf "revoked" .boolean,
      (Field.text "labels").list,
      (Field.leaf "confidence" .integer).withValidator (.range 0 100),
      .text "lang",
      (Field.leaf "object_marking_refs" (.identifier ["marking-definition"])).list]

def objectType : EntityType where
  name := "Object"
  typeName := "object"
  idField := some "id"
  fields :=
    [.identifier "id" "object",
      .leaf "has_changed" .boolean,
      .text "state",
      .text "description",
      .polymorphic "properties" objectProperties,
      .polymorphic "domain_specific_object_properties" domainSpecificProperties,
      (Field.related "related_objects" objectKey).list]

def addressType : EntityType where
  name := "Address"
  typeName := "address"
  tag := some ⟨propertiesTag, "AddressObjectType"⟩
  fields :=
    [.text "category",
      .leaf "is_source" .boolean,
      .leaf "is_destination" .boolean,
      (Field.text "address_value").require,
      .text "vlan_name",
      .leaf "vlan_num" .integer]

def fileType : EntityType where
  name := "File"
  typeName := "file"
  tag := some ⟨propertiesTag, "FileObjectType"⟩
  fields :=
    [.leaf "is_packed" .boolean,
      .text "file_name",
      .text "file_path",
      .text "file_extension",
      (Field.leaf "size_in_bytes" .integer).withValidator (.range 0 Int64.maxValue),
      .leaf "hashes" .dictionary]

def uriType : EntityType where
  name := "URI"
  typeName := "uri"
  tag := some ⟨propertiesTag, "URIObjectType"⟩
  fields := [(Field.text "value").require, .text "type"]

/-- The catalog's types with their keys. -/
def types : List (TypeKey × EntityType) :=
  [(groupingKey, groupingType), (objectKey, objectType), (addressKey, addressType),
    (fileKey, fileType), (uriKey, uriType)]

/-- A schema that gives the catalog's keys the catalog's types, and leaves the others to an
extension. -/
def schema (extension : TypeKey → EntityType) : Schema where
  typeOf key := (types.lookup key).getD (extension key)

/-! ## Registration -/

/-- The properties of objects with the tags that pick them. -/
def propertyTypes : List (String × TypeKey) :=
  [("AddressObjectType", addressKey), ("FileObjectType", fileKey), ("URIObjectType", uriKey)]

/-- Makes the two registries of properties, and fills the first. -/
def registerProperties : Registration Unit := do
  Registration.defineRegistry objectProperties propertiesTag
  Registration.defineRegistry domainSpecificProperties propertiesTag
  propertyTypes.forM fun (tag, type) => Registration.registerTagged objectProperties tag type

/-- Registers the types and registries of the catalog. -/
def register : Registration Unit := do
  Registration.registerType groupingKey
  Registration.registerNames objectKey
  registerProperties

/-- A context with the catalog registered. -/
def context (extension : TypeKey → EntityType) (ids : IdSource) (clock : Clock) :
    Except EntityError Context :=
  match register.run.run { schema := schema extension, ids, clock } with
  | (.ok (), ctx) => .ok ctx
  | (.error e, _) => .error e

end Dossier.Catalog
