import Dossier.Catalog.Object
import Dossier.Document
import Dossier.Proofs.CatalogTypes
import Dossier.Proofs.Decoding
import Dossier.Proofs.Rebuilding

/-!
# The round trip of the catalog

Where the catalog is registered and custom properties are not kept, what comes
from decoded documents is settled, and so are objects that others have been
related to. Such an entity is built again from its canonical form: the same
entity, with nothing drawn from the sources of identifiers and time
(`Catalog.ofMapping_canonical`).
-/

namespace Dossier

/-- What a document is decoded to, if it is not a mapping already. -/
def Document.Decodes (ctx : Context) : Document → Json → Prop
  | .text encoded, decoded => ctx.codec.decode encoded = .ok decoded
  | .json document, decoded => document = decoded
  | .mapping _, _ => False

theorem Document.toMapping_eq {ctx : Context} {document : Document} {json : Json}
    (decodes : document.Decodes ctx json) : document.toMapping ctx = toMapping.ofJson json := by
  cases document with
  | text encoded =>
    have decoded : ctx.codec.decode encoded = .ok json := decodes
    rw [toMapping, decoded]
    rfl
  | json document => exact congrArg toMapping.ofJson decodes
  | mapping properties => exact absurd decodes id

/-- The items of the list in a field are in the list that the field is set to. -/
theorem EntityList.mem_of_ofField? {α : Type} [Listable α] {schema : Schema} {e : Entity}
    {name : String} {list : EntityList α} (h : ofField? schema e name = some list) {item : α}
    (member : item ∈ list.items) :
    ∃ items, e.list? name = some items ∧ ∃ value ∈ items, Listable.ofValue? value = some item := by
  have items : list.items = ((e.list? name).getD []).filterMap Listable.ofValue? := by
    unfold ofField? at h
    obtain ⟨f, -, h⟩ := Option.bind_eq_some_iff.1 h
    split at h
    · dsimp only at h
      split at h <;> cases h <;> rfl
    · cases h
  rw [items] at member
  obtain ⟨value, inside, same⟩ := List.mem_filterMap.1 member
  cases found : e.list? name with
  | none =>
    rw [found] at inside
    exact absurd inside List.not_mem_nil
  | some items =>
    rw [found] at inside
    exact ⟨items, rfl, value, inside, same⟩

/-- What relating an entity embeds is that entity. -/
theorem RelatedObject.embedded_of_ofEntity {schema : Schema} {e d : Entity}
    {relationship : Option String} {isInline : Bool} {r : RelatedObject}
    (h : ofEntity schema e relationship isInline = .ok r) (held : r.embedded? = some d) : d = e := by
  unfold ofEntity at h
  split at h
  · cases h
    exact (Option.some.inj held).symm
  · simp only [toReference, inline] at h
    cases identified : e.requireIdentifier schema with
    | error e =>
      rw [identified] at h
      cases h
    | ok identifier =>
      -- a reference embeds nothing
      rw [identified] at h
      cases h
      cases held

namespace Catalog

/-! ## Decoded entities -/

/-- Entities that come from decoded documents, and objects that others were related to. That keys
are distinct is so of whatever a decoder gives. -/
inductive Decoded (ctx : Context) : Entity → Prop where
  | ofJson {type : TypeKey} {json : Json} {store after : Store} {e : Entity} (known : Known type)
    (distinct : json.KeysDistinct)
    (run : (Entity.ofJson ctx type json).run.run store = (.ok e, after)) : Decoded ctx e
  | parse {document : Document} {json : Json} {store after : Store} {e : Entity}
    (decodes : document.Decodes ctx json) (distinct : json.KeysDistinct)
    (run : (document.parse ctx).run.run store = (.ok e, after)) : Decoded ctx e
  | parseAs {typeName : String} {document : Document} {json : Json} {store after : Store}
    {e : Entity} (decodes : document.Decodes ctx json) (distinct : json.KeysDistinct)
    (run : (document.parseAs ctx typeName).run.run store = (.ok e, after)) : Decoded ctx e
  | addRelated {o other changed : Object} {relationship : String} {isInline : Bool}
    {store after : Store} (decoded : Decoded ctx o.entity)
    (object : Object.ofEntity ctx.schema o.entity = .ok o) (decodedOther : Decoded ctx other.entity)
    (objectOther : Object.ofEntity ctx.schema other.entity = .ok other)
    (run : (o.addRelated ctx other relationship isInline).run.run store = (.ok changed, after)) :
    Decoded ctx changed.entity

/-- Nothing has to be known of a text that a context parses as JSON. -/
theorem Decoded.of_text {ctx : Context} {indent : Nat} (codec : ctx.codec = .json indent)
    {text : String} {store after : Store} {e : Entity}
    (run : ((Document.text text).parse ctx).run.run store = (.ok e, after)) : Decoded ctx e := by
  cases decoded : ctx.codec.decode text with
  | ok json =>
    rw [codec] at decoded
    have distinct := Codec.keysDistinct_decode decoded
    rw [← codec] at decoded
    exact .parse (show (Document.text text).Decodes ctx json from decoded) distinct run
  | error e =>
    have failed : (Document.text text).toMapping ctx = .error e := by
      rw [Document.toMapping, decoded]
      rfl
    unfold Document.parse at run
    rw [failed] at run
    exact absurd (Prod.mk.inj run).1 (by simp)

section Settled

variable {ctx : Context}

/-- What is built of a decoded object is settled. -/
theorem ofMapping_settled (faithful : ctx.Faithful Known) {type : TypeKey} (known : Known type)
    {entries : Table Json} (distinct : (Json.object entries).KeysDistinct) :
    (Entity.ofMapping ctx type (Mapping.ofJson entries)).Ensures (·.Settled ctx Known) := by
  have plain := Value.plain_ofJson distinct
  have proper : (Mapping.ofJson entries).All (·.Proper (·.Settled ctx Known)) := by
    intro entry member
    cases plain with
    | mapping _ each => exact (each entry member).proper
  have built := Context.build_settled faithful type known _ proper
  apply Action.Ensures.finish
  exact built.mono fun e ⟨_, settled⟩ => settled

/-- What is built of the properties of a decoded document is settled. -/
theorem document_settled (faithful : ctx.Faithful Known) {document : Document} {json : Json}
    (decodes : document.Decodes ctx json) (distinct : json.KeysDistinct) {properties : Mapping}
    (decoded : document.toMapping ctx = .ok properties) {type : TypeKey} (known : Known type) :
    (Entity.ofMapping ctx type properties).Ensures (·.Settled ctx Known) := by
  rw [Document.toMapping_eq decodes] at decoded
  unfold Document.toMapping.ofJson at decoded
  split at decoded
  · cases decoded
    exact ofMapping_settled faithful known distinct
  · cases decoded

theorem ofJson_settled (faithful : ctx.Faithful Known) {type : TypeKey} (known : Known type)
    {json : Json} (distinct : json.KeysDistinct) :
    (Entity.ofJson ctx type json).Ensures (·.Settled ctx Known) := by
  cases json with
  | object entries => exact ofMapping_settled faithful known distinct
  | _ => exact .throw _

theorem parse_settled (h : Setting ctx) (faithful : ctx.Faithful Known) {document : Document}
    {json : Json} (decodes : document.Decodes ctx json) (distinct : json.KeysDistinct) :
    (document.parse ctx).Ensures (·.Settled ctx Known) := by
  unfold Document.parse
  refine .except_bind fun properties decoded => .except_bind fun type picked => ?_
  apply document_settled faithful decodes distinct decoded
  -- documents name no type but groupings
  obtain ⟨tag, -, found⟩ := Registry.pick_eq_ok.1 picked
  have member := Table.mem_of_get? found
  rw [h.types] at member
  obtain ⟨-, rfl⟩ := Prod.mk.inj (List.mem_singleton.1 member)
  decide

theorem parseAs_settled (h : Setting ctx) (faithful : ctx.Faithful Known) (typeName : String)
    {document : Document} {json : Json} (decodes : document.Decodes ctx json)
    (distinct : json.KeysDistinct) :
    (document.parseAs ctx typeName).Ensures (·.Settled ctx Known) := by
  unfold Document.parseAs
  refine .except_bind fun type named => .except_bind fun properties decoded => ?_
  apply document_settled faithful decodes distinct decoded
  unfold Context.typeNamed at named
  split at named
  · next found =>
    cases named
    exact h.names _ (Table.mem_of_get? found)
  · cases named

/-- The related objects of a settled object are settled. -/
theorem relatedObjects_settled {o : Object} (settled : o.entity.Settled ctx Known)
    {r : RelatedObject} (member : r ∈ (o.relatedObjects ctx.schema).items) :
    (Value.related r).Proper (·.Settled ctx Known) := by
  unfold Object.relatedObjects at member
  cases found : EntityList.ofField? (α := RelatedObject) ctx.schema o.entity "related_objects" with
  | none =>
    rw [found] at member
    exact absurd member List.not_mem_nil
  | some list =>
    rw [found] at member
    -- the related object is in a list among the values, which are proper
    obtain ⟨items, stored, value, inside, same⟩ := EntityList.mem_of_ofField? found member
    have bare : Table.get? o.entity.extras "related_objects" = none := by
      rw [settled.tidy.bare]
      rfl
    unfold Entity.list? Entity.get? at stored
    rw [bare, Option.or_none] at stored
    obtain ⟨held, there, listed⟩ := Option.bind_eq_some_iff.1 stored
    have proper := settled.values.get? there
    cases held with
    | list held =>
      obtain rfl := Option.some.inj listed
      cases proper with
      | list each =>
        have proper := each value inside
        cases value with
        | related held =>
          obtain rfl := Option.some.inj same
          exact proper
        | _ => exact absurd same (by simp [Listable.ofValue?, Value.related?])
    | _ => exact absurd listed (by simp [Value.list?])

/-- The field of related objects, which is the last. -/
theorem objectType_fields : ∃ init f, objectType.fields = init ++ [f] ∧
    objectType.field? "related_objects" = some f :=
  ⟨objectType.fields.dropLast, (Field.related "related_objects" objectKey).list, rfl, rfl⟩

/-- What is known to be an object has the type of objects. -/
theorem type_of_object (h : Setting ctx) (faithful : ctx.Faithful Known) {o : Object}
    (object : Object.ofEntity ctx.schema o.entity = .ok o) (known : Known o.entity.typeKey) :
    o.entity.typeKey = objectKey ∧ o.entity.type ctx.schema = objectType := by
  have same : (ctx.typeOf o.entity.typeKey).sameAs (ctx.typeOf objectKey) = true := by
    rw [h.typeOf_object]
    unfold Object.ofEntity at object
    split at object
    · next isOf => exact isOf
    · cases object
  have key : o.entity.typeKey = objectKey := by
    apply faithful.apart _ _ known _ same
    decide
  refine ⟨key, ?_⟩
  show ctx.typeOf o.entity.typeKey = objectType
  rw [key, h.typeOf_object]

/-- Setting the related objects of a settled object to settled ones. -/
theorem set_settled (faithful : ctx.Faithful Known) {e : Entity} (settled : e.Settled ctx Known)
    (type : e.type ctx.schema = objectType) {value : Value}
    (proper : value.Proper (·.Settled ctx Known)) :
    (e.set ctx "related_objects" value).Ensures (·.Settled ctx Known) := by
  obtain ⟨init, f, last, found⟩ := objectType_fields
  rw [← type] at last found
  have asks := (faithful.types _ settled.tidy.known).asks f (EntityType.mem_of_field? found).1
  unfold Entity.set
  simp only [found]
  have makes := Context.build_settled faithful
  have changes := Entity.setField_ensures (e := e) (Value.carries_proper _).conveys makes asks proper
  apply Action.Ensures.finish
  refine changes.mono ?_
  rintro changed ⟨held, stores, proper, rfl⟩
  exact settled.setLast last stores proper

/-- Relating settled objects leaves a settled one. -/
theorem addRelated_settled (h : Setting ctx) (faithful : ctx.Faithful Known) {o other : Object}
    (object : Object.ofEntity ctx.schema o.entity = .ok o) (settled : o.entity.Settled ctx Known)
    (settledOther : other.entity.Settled ctx Known) (relationship : String) (isInline : Bool) :
    (o.addRelated ctx other relationship isInline).Ensures (·.entity.Settled ctx Known) := by
  obtain ⟨-, type⟩ := type_of_object h faithful object settled.tidy.known
  unfold Object.addRelated
  refine .except_bind fun r made => .except_bind fun list pushed => ?_
  have proper : list.toValue.Proper (·.Settled ctx Known) := by
    unfold EntityList.push at pushed
    dsimp only at pushed
    split at pushed
    · cases pushed
      apply Value.Proper.list
      intro value member
      obtain ⟨held, inside, rfl⟩ := List.mem_map.1 member
      -- what was related before, and the new one, which embeds the other object or nothing
      rcases List.mem_append.1 inside with before | last
      · exact relatedObjects_settled settled before
      · obtain rfl := List.mem_singleton.1 last
        apply Value.Proper.related
        intro d embedded
        obtain rfl := RelatedObject.embedded_of_ofEntity made embedded
        exact settledOther
    · cases pushed
  refine .bind (set_settled faithful settled type proper) fun changed settled => ?_
  exact .after fun _ => .pure settled

/-- **Decoded entities are settled.** By induction on the objects that were related. -/
theorem Decoded.settled (h : Setting ctx) (faithful : ctx.Faithful Known) {e : Entity}
    (decoded : Decoded ctx e) : e.Settled ctx Known := by
  induction decoded with
  | ofJson known distinct run => exact ofJson_settled faithful known distinct _ _ _ run
  | parse decodes distinct run => exact parse_settled h faithful decodes distinct _ _ _ run
  | parseAs decodes distinct run => exact parseAs_settled h faithful _ decodes distinct _ _ _ run
  | addRelated _ object _ _ run settled settledOther =>
    exact addRelated_settled h faithful object settled settledOther _ _ _ _ _ run

end Settled

/-! ## The round trip -/

/-- **The canonical round trip.** An entity that comes from decoded documents, whose timestamps have
years from 0 to 9999, is built again from its canonical form: the result is the same entity, its
canonical form is the same with its keys in the same order at every depth, and nothing was drawn. -/
theorem ofMapping_canonical {ctx : Context} (registered : Registered ctx)
    (plain : ctx.config.allowCustomProperties = false) {e : Entity} (decoded : Decoded ctx e)
    (dated : e.Dated) (store : Store) :
    ∃ rebuilt after,
      (Entity.ofMapping ctx e.typeKey (Mapping.ofJson (e.canonical ctx.schema))).run.run store =
        (.ok rebuilt, after) ∧
      after.supply = store.supply ∧
      rebuilt.same ctx.schema e = true ∧
      rebuilt.canonical ctx.schema = e.canonical ctx.schema := by
  have faithful := registered.setting.faithful plain
  have settled := decoded.settled registered.setting faithful
  have rebuilds := settled.rebuilds faithful dated
  obtain ⟨calls, run, caching⟩ := rebuilds.back store
  have drawless : (ctx.runHooks calls store).supply = store.supply := by
    refine ctx.runHooks_supply (fun call member store => ?_) store
    rw [caching call member]
    exact ctx.cacheEntity_supply call.entity store
  refine ⟨e, ctx.runHooks calls store, ?_, drawless, rebuilds.distinct.same_self, rfl⟩
  rw [rebuilds.read]
  exact Build.finish_run_ok run

/-! An object of a document, with another related to it that has properties. -/

/-- The catalog registered, with identifiers counted. -/
def countingContext : Context :=
  (register.run.run
    { schema := schema fun _ => objectType, ids := .sequential, clock := .fixed .epoch }).2

def site : Entity where
  typeKey := objectKey
  values :=
    [("id", .string "object--00000000-0000-4000-8000-000000000001"), ("state", .string "seen")]
  extras := []

def link : Entity where
  typeKey := objectKey
  values :=
    [("id", .string "object--00000000-0000-4000-8000-000000000002"),
      ("properties", .entity {
        typeKey := uriKey
        values := [("value", .string "here")]
        extras := [] })]
  extras := []

def linkedSite : Entity :=
  { site with
    values := site.values ++ [("related_objects", .list [.related (.inline link (some "has"))])] }

theorem countingContext_registered : Registered countingContext := by
  have bare : Unregistered
      { schema := schema fun _ => objectType, ids := .sequential, clock := .fixed .epoch } :=
    ⟨⟨_, rfl⟩, rfl, rfl, rfl⟩
  refine ⟨_, bare, ?_⟩
  obtain ⟨names, -, run⟩ := register_run bare
  unfold countingContext
  rw [run]

theorem site_decoded : Decoded countingContext site := by
  obtain ⟨after, run⟩ : ∃ after, (Entity.ofJson countingContext objectKey (.object
      [("id", .string "object--00000000-0000-4000-8000-000000000001"),
        ("state", .string "seen")])).run.run {} = (.ok site, after) := ⟨_, rfl⟩
  refine .ofJson (by decide) (.object (by decide) ?_) run
  simp [Json.KeysDistinct.string]

theorem link_decoded : Decoded countingContext link := by
  have properties : (Json.object [("xsi:type", .string "URIObjectType"),
      ("value", .string "here")]).KeysDistinct :=
    .object (by decide) (by simp [Json.KeysDistinct.string])
  obtain ⟨after, run⟩ : ∃ after, (Entity.ofJson countingContext objectKey (.object
      [("id", .string "object--00000000-0000-4000-8000-000000000002"),
        ("properties", .object [("xsi:type", .string "URIObjectType"),
          ("value", .string "here")])])).run.run {} = (.ok link, after) := ⟨_, rfl⟩
  refine .ofJson (by decide) (.object (by decide) ?_) run
  simp [Json.KeysDistinct.string, properties]

theorem linkedSite_decoded : Decoded countingContext linkedSite := by
  obtain ⟨after, run⟩ : ∃ after, (Object.addRelated countingContext ⟨site⟩ ⟨link⟩ "has" true).run.run
      {} = (.ok ⟨linkedSite⟩, after) := ⟨_, rfl⟩
  exact .addRelated site_decoded rfl link_decoded rfl run

/-- There are no timestamps in it. -/
theorem linkedSite_dated : linkedSite.Dated := by
  have linkDated : link.Dated := by
    have uri : (Value.entity ⟨uriKey, [("value", .string "here")], []⟩).Dated := by
      apply Entity.dated_iff.2
      simp
    rw [Entity.dated_iff]
    simp [link, uri]
  have related : (Value.related (.inline link (some "has"))).Dated := by
    rw [Value.dated_related]
    intro e held
    obtain rfl := Option.some.inj held
    exact linkDated
  rw [Entity.dated_iff]
  simp [linkedSite, site, related]

/-- It is built again from its canonical form. -/
theorem linkedSite_rebuilt :
    ∃ rebuilt after,
      (Entity.ofMapping countingContext linkedSite.typeKey
        (Mapping.ofJson (linkedSite.canonical countingContext.schema))).run.run {} =
          (.ok rebuilt, after) ∧
      after.supply = {} ∧
      rebuilt.same countingContext.schema linkedSite = true ∧
      rebuilt.canonical countingContext.schema = linkedSite.canonical countingContext.schema :=
  ofMapping_canonical countingContext_registered rfl linkedSite_decoded linkedSite_dated {}

end Catalog

end Dossier
