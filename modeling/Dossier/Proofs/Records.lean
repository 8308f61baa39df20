import Dossier.Proofs.Canonical

/-!
# Records of related objects

A related object is written as a record: what it embeds, or the identifier that it
refers to, and then the relationship. A reference is read back as it was
(`RelatedObject.ofRecord_byReference`). An inline object is read back as what is built
of the canonical form of its entity (`RelatedObject.ofRecord_inline`), if that can be
told from a reference.
-/

namespace Dossier

theorem RelatedObject.isOf_of_embeds {schema : Schema} {type : EntityType} {r : RelatedObject}
    (embeds : r.embeds schema type = true) {e : Entity} (held : r.embedded? = some e) :
    e.isOf schema type = true := by
  obtain ⟨holding, relationship⟩ := r
  cases holding with
  | inline d =>
    obtain rfl := Option.some.inj held
    exact embeds
  | byReference idref => exact absurd held (by simp [embedded?])

/-- An entity that an inline record can hold: its canonical form has neither of the keys of a record,
and is not read as nothing. -/
structure Entity.Recordable (schema : Schema) (e : Entity) : Prop where
  apart : ∀ key ∈ [idrefKey, relationshipKey], key ∉ Table.keys (e.canonical schema)
  nonempty : Mapping.ofJson (e.canonical schema) ≠ []

/-- Reading leaves out nulls, and adds no keys. -/
theorem Mapping.keys_ofJson_subset (entries : Table Json) :
    Table.keys (Mapping.ofJson entries) ⊆ Table.keys entries := by
  intro key member
  rw [Mapping.ofJson, Value.mappingOfJson_eq] at member
  obtain ⟨_, there, rfl⟩ := List.mem_map.1 member
  obtain ⟨entry, kept, rfl⟩ := List.mem_map.1 there
  exact List.mem_map_of_mem (List.mem_filter.1 kept).1

/-- The entry of a relationship in a record. -/
def RelatedObject.relationshipEntry {α : Type} (ofText : String → α) (relationship : Option String) :
    Table α :=
  (relationship.map fun s => (relationshipKey, ofText s)).toList

namespace RelatedObject

variable {ctx : Context} {inner : Mapping} {relationship : Option String}

/-- The canonical form of a related object: the relationship comes last. -/
theorem canonical_eq (schema : Schema) (holding : Holding) (relationship : Option String)
    (absent : relationshipKey ∉ Table.keys (holding.canonical schema)) :
    canonical schema ⟨holding, relationship⟩ =
      holding.canonical schema ++ relationshipEntry .string relationship := by
  cases relationship with
  | none => exact (List.append_nil _).symm
  | some s => exact Table.insert_of_absent absent _

theorem ofJson_append (entries : Table Json) (relationship : Option String) :
    Mapping.ofJson (entries ++ relationshipEntry .string relationship) =
      Mapping.ofJson entries ++ relationshipEntry .string relationship := by
  unfold Mapping.ofJson
  simp only [Value.mappingOfJson_eq, List.filter_append, List.map_append]
  cases relationship <;> rfl

/-- A reference is under another key than the relationship. -/
theorem relationship_absent {α : Type} (reference : α) :
    relationshipKey ∉ Table.keys [(idrefKey, reference)] := by
  show relationshipKey ∉ [idrefKey]
  decide

theorem relationshipOf_append (absent : relationshipKey ∉ Table.keys inner) :
    relationshipOf (inner ++ relationshipEntry .string relationship) = .ok relationship := by
  unfold relationshipOf
  rw [Table.get?_append, Table.get?_eq_none_iff.2 absent, Option.none_or]
  cases relationship <;> rfl

theorem get?_idref_append (inner : Mapping) (relationship : Option String) :
    Table.get? (inner ++ relationshipEntry .string relationship) idrefKey =
      inner.get? idrefKey := by
  rw [Table.get?_append]
  cases relationship with
  | none => exact Option.or_none
  | some s => exact Option.or_none

theorem payloadOf_append (absent : relationshipKey ∉ Table.keys inner) :
    payloadOf (inner ++ relationshipEntry .string relationship) = inner.erase idrefKey := by
  have dropped : Table.erase (inner ++ relationshipEntry .string relationship) relationshipKey =
      inner := by
    rw [Table.erase, List.filter_append]
    change Table.erase inner relationshipKey ++ _ = _
    rw [Table.erase_of_absent absent]
    cases relationship <;> simp [relationshipEntry]
  rw [payloadOf, dropped]

/-- The canonical form of an inline object is that of its entity with the relationship. -/
theorem canonical_inline {schema : Schema} {e : Entity} (recordable : e.Recordable schema)
    (relationship : Option String) :
    canonical schema ⟨.inline e, relationship⟩ =
      e.canonical schema ++ relationshipEntry .string relationship :=
  canonical_eq schema (.inline e) relationship (recordable.apart relationshipKey (by simp))

theorem canonical_byReference (schema : Schema) (idref : String) (relationship : Option String) :
    canonical schema ⟨.byReference idref, relationship⟩ =
      [(idrefKey, .string idref)] ++ relationshipEntry .string relationship :=
  canonical_eq schema (.byReference idref) relationship (relationship_absent _)

/-- What an inline object is written as is read as inline, whatever it is presented as: its record
has properties and no identifier to refer to. They are built like the entity's own. -/
theorem ofRecord_inline (build : Builder) (type : TypeKey) {schema : Schema} {e : Entity}
    (recordable : e.Recordable schema) (relationship : Option String) (shown : Presentation) :
    ofRecord build type (Mapping.ofJson (canonical schema ⟨.inline e, relationship⟩)) shown =
      (inline · relationship) <$> build type (Mapping.ofJson (e.canonical schema)) := by
  have apart : ∀ key ∈ [idrefKey, relationshipKey],
      key ∉ Table.keys (Mapping.ofJson (e.canonical schema)) :=
    fun key reserved member => recordable.apart key reserved (Mapping.keys_ofJson_subset _ member)
  have noIdref := apart idrefKey (by simp)
  have noRelationship := apart relationshipKey (by simp)
  have idref : idrefOf (Mapping.ofJson (e.canonical schema) ++
      relationshipEntry .string relationship) = .ok none := by
    rw [idrefOf, get?_idref_append, Table.get?_eq_none_iff.2 noIdref]
  rw [canonical_inline recordable, ofJson_append, ofRecord, relationshipOf_append noRelationship,
    idref, payloadOf_append noRelationship, Table.erase_of_absent noIdref]
  simp only [Build.ofExcept, pure_bind, if_neg recordable.nonempty, map_eq_pure_bind]

/-- What a reference is written as is read back as a reference. -/
theorem ofRecord_byReference (build : Builder) (type : TypeKey) (schema : Schema) {idref : String}
    (wellFormed : (Identifier.parse? idref).isSome) (relationship : Option String)
    (shown : Presentation) :
    ofRecord build type (Mapping.ofJson (canonical schema ⟨.byReference idref, relationship⟩))
      shown = pure ⟨.byReference idref, relationship⟩ := by
  have noRelationship := relationship_absent (Value.string idref)
  have record : Mapping.ofJson (canonical schema ⟨.byReference idref, relationship⟩) =
      [(idrefKey, .string idref)] ++ relationshipEntry .string relationship := by
    rw [canonical_byReference, ofJson_append]
    rfl
  have named : idrefOf ([(idrefKey, .string idref)] ++ relationshipEntry .string relationship) =
      .ok (some idref) := by
    have kept : (some idref).filter (fun s => (Identifier.parse? s).isSome) = some idref :=
      Option.filter_eq_some_iff.2 ⟨rfl, wellFormed⟩
    rw [idrefOf, get?_idref_append]
    simp only [Table.get?, Value.string?, kept, if_true]
  -- without its two keys the record is empty, so there is nothing to embed
  have nothing : Table.erase [(idrefKey, Value.string idref)] idrefKey = [] := by
    simp [Table.erase]
  rw [record, ofRecord, relationshipOf_append noRelationship, named,
    payloadOf_append noRelationship, nothing]
  simp only [Build.ofExcept, pure_bind, true_or, if_true]
  rfl

variable {H : Hook → Prop}

/-- **Related objects are read back from their records**, in whatever form those are presented. -/
theorem ofRecord_gives {type : TypeKey} {r : RelatedObject}
    (refers : r.Refers ctx.schema (ctx.typeOf type))
    (inside : ∀ e, r.embedded? = some e →
      e.typeKey = type ∧ e.Recordable ctx.schema ∧ e.Rebuilds H ctx) (shown : Presentation) :
    (ofRecord ctx.build type (Mapping.ofJson (r.canonical ctx.schema)) shown).Gives H r := by
  obtain ⟨holding, relationship⟩ := r
  cases holding with
  | inline e =>
    obtain ⟨rfl, recordable, rebuilds⟩ := inside e rfl
    rw [ofRecord_inline ctx.build e.typeKey recordable, rebuilds.read]
    exact rebuilds.back.map (inline · relationship)
  | byReference idref =>
    rw [ofRecord_byReference ctx.build type ctx.schema (refers.2 idref rfl)]
    exact .pure _

/-- The record of a related object has distinct keys. -/
theorem keysDistinct_toJson {r : RelatedObject}
    (inside : ∀ e, r.embedded? = some e → e.Recordable ctx.schema ∧ e.Rebuilds H ctx) :
    (r.toJson ctx.schema).KeysDistinct := by
  obtain ⟨holding, relationship⟩ := r
  have inner : (Json.object (holding.canonical ctx.schema)).KeysDistinct := by
    cases holding with
    | inline e => exact (inside e rfl).2.distinct
    | byReference idref =>
      refine .object ?_ ?_
      · show [idrefKey].Nodup
        decide
      · intro entry member
        obtain rfl := List.mem_singleton.1 member
        exact .string _
  show (Json.object (canonical ctx.schema ⟨holding, relationship⟩)).KeysDistinct
  cases relationship with
  | none => exact inner
  | some s =>
    cases inner with
    | object distinct each =>
      apply Json.KeysDistinct.object (distinct.insert _ _)
      intro entry member
      rcases Table.mem_of_mem_insert member with ⟨-, same⟩ | before
      · rw [same]
        exact .string s
      · exact each _ before

end RelatedObject

end Dossier
