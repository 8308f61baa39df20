import Dossier.Proofs.CatalogTypes
import Dossier.Proofs.Registrations

/-!
# Registering the catalog where it is refused

Registering the catalog is seven enrolments in a row, and the first that is refused ends
it. That one changes nothing, but those before it stay. So the context is as it was if
the tag of groupings is taken, and if it is a tag of properties then groupings, objects
and the properties before it remain registered (`Catalog.register_refused`).
-/

namespace Dossier

/-- What is registered comes last. -/
theorem Registry.register_eq_ok {old new : Registry} {tag : String} {type : TypeKey}
    (registered : old.register tag type = .ok new) :
    new = { old with entries := old.entries ++ [(tag, type)] } := by
  unfold register at registered
  split at registered
  · cases registered
  · next fresh =>
    have absent : tag ∉ Table.keys old.entries :=
      Table.get?_eq_none_iff.1 (by simpa [Table.contains] using fresh)
    rw [← Except.ok.inj registered, Table.insert_of_absent absent]

namespace Enrolment

variable {ctx next : Context} {err : EntityError} {enrolments : List Enrolment}

/-- A row of enrolments fails at the first that is refused: those before it have taken effect, and
it changes nothing. -/
theorem forM_failed (run : (enrolments.forM register).run.run ctx = (.error err, next)) :
    ∃ done refused rest, enrolments = done ++ refused :: rest ∧
      (done.forM register).run.run ctx = (.ok (), next) ∧
      refused.register.run.run next = (.error err, next) := by
  induction enrolments generalizing ctx with
  | nil => cases run
  | cons enrolment more ih =>
    rw [forM_cons_run] at run
    rcases enrolment.register_cases ctx with ⟨other, refused⟩ | ⟨between, accepted, -⟩
    · rw [refused] at run
      cases run
      exact ⟨[], enrolment, more, rfl, rfl, refused⟩
    · rw [accepted] at run
      obtain ⟨done, last, rest, rfl, before, refused⟩ := ih run
      refine ⟨enrolment :: done, last, rest, rfl, ?_, refused⟩
      rw [forM_cons_run, accepted]
      exact before

/-- A row fails if one of its enrolments is refused however registries have grown. -/
theorem forM_refused {enrolment : Enrolment} (member : enrolment ∈ enrolments)
    (always : ∀ later, ctx.Extends later →
      ∃ err, (enrolment.register.run.run later).1 = .error err) :
    ∃ err, ((enrolments.forM register).run.run ctx).1 = .error err := by
  induction enrolments generalizing ctx with
  | nil => exact absurd member List.not_mem_nil
  | cons first more ih =>
    rw [forM_cons_run]
    rcases first.register_cases ctx with ⟨err, refused⟩ | ⟨between, accepted, step⟩
    · exact ⟨err, by rw [refused]⟩
    · rw [accepted]
      rcases List.mem_cons.1 member with rfl | later
      · obtain ⟨err, failed⟩ := always ctx (.refl ctx)
        rw [accepted] at failed
        cases failed
      · exact ih later fun last grown => always last (step.grown.trans grown)

theorem forM_append_run (first second : List Enrolment) (ctx : Context) :
    ((first ++ second).forM register).run.run ctx =
      match (first.forM register).run.run ctx with
      | (.ok (), between) => (second.forM register).run.run between
      | (.error err, last) => (.error err, last) := by
  have parts : (first ++ second).forM register =
      (first.forM register >>= fun _ => second.forM register) := List.forM_append
  rw [parts, ExceptT.run_bind, StateT.run_bind]
  rcases (first.forM register).run.run ctx with ⟨_ | _, next⟩ <;> rfl

theorem type_refused {key bound : TypeKey}
    (taken : ctx.types.get? (ctx.typeOf key).typeName = some bound) (later : Context)
    (grown : ctx.Extends later) : ∃ err, ((type key).register.run.run later).1 = .error err := by
  have same : later.typeOf key = ctx.typeOf key := by rw [Context.typeOf, grown.schema]; rfl
  refine ⟨_, registerType_refused.2 ⟨⟨bound, ?_⟩, rfl⟩⟩
  rw [same]
  exact grown.types.get? taken

theorem tagged_refused {name tag : String} {key bound : TypeKey} {registry : Registry}
    (found : ctx.registry name = .ok registry) (taken : registry.get? tag = some bound)
    (later : Context) (grown : ctx.Extends later) :
    ∃ err, ((tagged name tag key).register.run.run later).1 = .error err := by
  obtain ⟨wider, there, extension⟩ := grown.variants name registry found
  exact ⟨_, registerTagged_refused.2 (.inr ⟨wider, there, ⟨bound, extension.get? taken⟩, rfl⟩)⟩

/-! ## Rows of enrolments that succeed -/

/-- The type that an enrolment adds to those of documents, with its tag. -/
def documentType? (schema : Schema) : Enrolment → Option (String × TypeKey)
  | type key => some ((schema.typeOf key).typeName, key)
  | _ => none

/-- The registry of a name, if there is one, after an enrolment that succeeds. -/
def onRegistry (name : String) (before : Option Registry) : Enrolment → Option Registry
  | registry other key => if other = name then before.or (some { name, key }) else before
  | tagged other tag key =>
    if other = name then before.map fun r => { r with entries := r.entries ++ [(tag, key)] }
    else before
  | _ => before

/-- Step: the types of documents. -/
theorem types_of_ok {enrolment : Enrolment}
    (run : enrolment.register.run.run ctx = (.ok (), next)) :
    next.types = { ctx.types with
      entries := ctx.types.entries ++ (enrolment.documentType? ctx.schema).toList } := by
  -- only the enrolment of a document type adds an entry
  have kept : ctx.types = { ctx.types with entries := ctx.types.entries ++ [] } := by
    rw [List.append_nil]
  cases enrolment with
  | names key =>
    obtain rfl := (Prod.mk.inj run).2
    exact kept
  | type key =>
    rw [register, Registration.registerType_run] at run
    cases registered : ctx.types.register (ctx.typeOf key).typeName key with
    | error err =>
      rw [registered] at run
      cases run
    | ok types =>
      rw [registered] at run
      obtain rfl := (Prod.mk.inj run).2
      exact Registry.register_eq_ok registered
  | registry name key =>
    obtain rfl := (Prod.mk.inj run).2
    show (if ctx.variants.contains name then ctx else _).types = _
    split <;> exact kept
  | tagged name tag key =>
    obtain rfl := (congrArg (·.2) run : _ = next)
    rcases Registration.registerTagged_cases name tag key ctx with same | ⟨_, _, -, -, grown⟩
    · rw [register, same]
      exact kept
    · rw [register, grown]
      exact kept

/-- Step: the registries of fields. -/
theorem variants_of_ok {enrolment : Enrolment}
    (run : enrolment.register.run.run ctx = (.ok (), next)) (name : String) :
    next.variants.get? name = onRegistry name (ctx.variants.get? name) enrolment := by
  cases enrolment with
  | names key => rw [← (Prod.mk.inj run).2]; rfl
  | type key => rw [Registration.registerType_variants run]; rfl
  | registry other key =>
    obtain rfl := (Prod.mk.inj run).2
    show Table.get? (if ctx.variants.contains other then ctx else _).variants name = _
    unfold onRegistry Table.contains
    by_cases same : other = name
    · subst same
      cases found : ctx.variants.get? other with
      | some r => simpa using found
      | none => simp
    · split <;> simp [same]
  | tagged other tag key =>
    obtain ⟨old, new, found, registered, grown⟩ := Registration.registerTagged_ok run
    rw [grown, Table.get?_insert, onRegistry]
    by_cases same : other = name
    · subst same
      rw [if_pos rfl, if_pos rfl, found, Registry.register_eq_ok registered]
      rfl
    · rw [if_neg same, if_neg same]

theorem forM_cons_ok {enrolment : Enrolment} {more : List Enrolment}
    (run : ((enrolment :: more).forM register).run.run ctx = (.ok (), next)) :
    ∃ between, enrolment.register.run.run ctx = (.ok (), between) ∧ ctx.Extends between ∧
      (more.forM register).run.run between = (.ok (), next) := by
  rw [forM_cons_run] at run
  rcases enrolment.register_cases ctx with ⟨err, refused⟩ | ⟨between, accepted, step⟩
  · rw [refused] at run
    cases run
  · rw [accepted] at run
    exact ⟨between, accepted, step.grown, run⟩

/-- Run: the types of documents. By induction on the enrolments. -/
theorem types_forM (run : (enrolments.forM register).run.run ctx = (.ok (), next)) :
    next.types = { ctx.types with
      entries := ctx.types.entries ++ enrolments.filterMap (documentType? ctx.schema) } := by
  induction enrolments generalizing ctx with
  | nil =>
    obtain rfl := (Prod.mk.inj run).2
    rw [List.filterMap_nil, List.append_nil]
  | cons enrolment more ih =>
    obtain ⟨between, first, grown, later⟩ := forM_cons_ok run
    rw [ih later, types_of_ok first, grown.schema, List.filterMap_cons]
    cases enrolment.documentType? ctx.schema <;> simp

/-- Run: the registries of fields. By induction on the enrolments. -/
theorem variants_forM (run : (enrolments.forM register).run.run ctx = (.ok (), next))
    (name : String) :
    next.variants.get? name = enrolments.foldl (onRegistry name) (ctx.variants.get? name) := by
  induction enrolments generalizing ctx with
  | nil =>
    obtain rfl := (Prod.mk.inj run).2
    rfl
  | cons enrolment more ih =>
    obtain ⟨between, first, -, later⟩ := forM_cons_ok run
    rw [ih later, variants_of_ok first, List.foldl_cons]

theorem accepted_of_ok (run : (enrolments.forM register).run.run ctx = (.ok (), next)) :
    accepted enrolments ctx = enrolments := by
  induction enrolments generalizing ctx with
  | nil => rfl
  | cons enrolment more ih =>
    obtain ⟨between, first, -, later⟩ := forM_cons_ok run
    rw [accepted, first]
    dsimp only
    rw [ih later]

/-- A name is that of the type of some enrolment, if no other of them goes by it. -/
theorem typeNamed_of_named (run : (enrolments.forM register).run.run ctx = (.ok (), next))
    {name : String} {key : TypeKey}
    (named : ∃ enrolment ∈ enrolments, enrolment.named? ctx.schema name = some key)
    (alone : ∀ enrolment ∈ enrolments, ∀ other,
      enrolment.named? ctx.schema name = some other → other = key) :
    next.typeNamed name = .ok key := by
  have names := names_forM enrolments ctx name
  rw [run, accepted_of_ok run] at names
  obtain ⟨enrolment, member, goes⟩ := named
  have among : key ∈ enrolments.filterMap (named? ctx.schema name) :=
    List.mem_filterMap.2 ⟨enrolment, member, goes⟩
  have last : (enrolments.filterMap (named? ctx.schema name)).getLast? = some key := by
    rw [List.getLast?_eq_some_getLast (List.ne_nil_of_mem among)]
    obtain ⟨other, there, same⟩ := List.mem_filterMap.1 (List.getLast_mem (List.ne_nil_of_mem among))
    rw [alone other there _ same]
  rw [Context.typeNamed, names, last]
  rfl

/-- A name by which none of the types goes stays what it was. -/
theorem typeNamed_of_unnamed (run : (enrolments.forM register).run.run ctx = (.ok (), next))
    {name : String}
    (unnamed : ∀ enrolment ∈ enrolments, enrolment.named? ctx.schema name = none) :
    next.typeNamed name = ctx.typeNamed name := by
  have names := names_forM enrolments ctx name
  rw [run, accepted_of_ok run, List.filterMap_eq_nil_iff.2 unnamed] at names
  rw [Context.typeNamed, names]
  rfl

theorem named?_eq_some_iff {schema : Schema} {name : String} {enrolment : Enrolment}
    {key : TypeKey} :
    enrolment.named? schema name = some key ↔ enrolment.type? = some key ∧
      ((schema.typeOf key).name = name ∨ (schema.typeOf key).typeName = name) := by
  simp [named?, Option.filter_eq_some_iff]

/-- A row of types is put into one registry. -/
theorem foldl_onRegistry_tagged (name other : String) (entries : List (String × TypeKey))
    (before : Option Registry) :
    (entries.map fun (tag, key) => tagged other tag key).foldl (onRegistry name) before =
      if other = name then before.map fun r => { r with entries := r.entries ++ entries }
      else before := by
  induction entries generalizing before with
  | nil => cases before <;> simp
  | cons entry entries ih =>
    rw [List.map_cons, List.foldl_cons, ih, onRegistry]
    split
    · cases before <;> simp
    · rfl

end Enrolment

namespace Catalog

open Enrolment (onRegistry)

/-! ## The catalog up to some of its properties -/

/-- The types that are known by their names once the properties given are registered. -/
def keysUpTo (done : List (String × TypeKey)) : List TypeKey :=
  groupingKey :: objectKey :: done.map (·.2)

/-- What registering the catalog up to some of its properties makes of a context, in which or newly
there is the first registry: all else is as it was. -/
structure RegisteredUpTo (done : List (String × TypeKey)) (ctx next : Context)
    (properties : Registry) : Prop where
  types : next.types =
    { ctx.types with entries := ctx.types.entries ++ [("grouping", groupingKey)] }
  properties : next.registry objectProperties =
    .ok { properties with entries := properties.entries ++ done }
  domainSpecific : next.registry domainSpecificProperties =
    .ok ((ctx.variants.get? domainSpecificProperties).getD
      { name := domainSpecificProperties, key := propertiesTag })
  registries : ∀ name, name ≠ objectProperties → name ≠ domainSpecificProperties →
    next.registry name = ctx.registry name
  named : ∀ key ∈ keysUpTo done, next.typeNamed (ctx.typeOf key).name = .ok key ∧
    next.typeNamed (ctx.typeOf key).typeName = .ok key
  unnamed : ∀ name, (∀ key ∈ keysUpTo done,
    (ctx.typeOf key).name ≠ name ∧ (ctx.typeOf key).typeName ≠ name) →
      next.typeNamed name = ctx.typeNamed name

/-- The enrolments of the catalog up to some of its properties. -/
def upTo (done : List (String × TypeKey)) : List Enrolment :=
  [.type groupingKey, .names objectKey, .registry objectProperties propertiesTag,
    .registry domainSpecificProperties propertiesTag] ++
    done.map fun (tag, type) => .tagged objectProperties tag type

theorem filterMap_type?_upTo (done : List (String × TypeKey)) :
    (upTo done).filterMap Enrolment.type? = keysUpTo done := by
  have tagged : ((·.type?) ∘ fun (entry : String × TypeKey) =>
      Enrolment.tagged objectProperties entry.1 entry.2) = fun entry => some entry.2 := rfl
  rw [upTo, List.filterMap_append, List.filterMap_map, tagged, List.filterMap_eq_map']
  rfl

theorem documentTypes_upTo (schema : Schema) (done : List (String × TypeKey)) :
    (upTo done).filterMap (Enrolment.documentType? schema) =
      [((schema.typeOf groupingKey).typeName, groupingKey)] := by
  have tagged : ((·.documentType? schema) ∘ fun (entry : String × TypeKey) =>
      Enrolment.tagged objectProperties entry.1 entry.2) = fun _ => none := rfl
  rw [upTo, List.filterMap_append, List.filterMap_map, tagged, List.filterMap_none]
  rfl

/-- No two types of the catalog have a name in common. -/
theorem key_eq_of_name : ∀ a ∈ types, ∀ b ∈ types,
    (a.2.name = b.2.name ∨ a.2.name = b.2.typeName ∨ a.2.typeName = b.2.name ∨
      a.2.typeName = b.2.typeName) → a.1 = b.1 := by
  decide

theorem known_of_mem_keysUpTo {done : List (String × TypeKey)} (among : done ⊆ propertyTypes)
    {key : TypeKey} (member : key ∈ keysUpTo done) : Known key := by
  have properties : ∀ entry ∈ propertyTypes, Known entry.2 := by decide
  rcases List.mem_cons.1 member with rfl | later
  · decide
  rcases List.mem_cons.1 later with rfl | last
  · decide
  obtain ⟨entry, there, rfl⟩ := List.mem_map.1 last
  exact properties entry (among there)

section Outcome

variable {ctx next : Context} {done : List (String × TypeKey)}

theorem typeName_grouping (schema : ∃ extension, ctx.schema = Catalog.schema extension) :
    (ctx.typeOf groupingKey).typeName = "grouping" := by
  obtain ⟨extension, same⟩ := schema
  rw [Context.typeOf, same]
  rfl

/-- The types that go by a name among those registered. -/
theorem mem_keysUpTo_of_named {enrolment : Enrolment} (member : enrolment ∈ upTo done)
    {name : String} {key : TypeKey} (named : enrolment.named? ctx.schema name = some key) :
    key ∈ keysUpTo done ∧ ((ctx.typeOf key).name = name ∨ (ctx.typeOf key).typeName = name) := by
  obtain ⟨type, goes⟩ := Enrolment.named?_eq_some_iff.1 named
  rw [← filterMap_type?_upTo]
  exact ⟨List.mem_filterMap.2 ⟨enrolment, member, type⟩, goes⟩

variable (run : ((upTo done).forM Enrolment.register).run.run ctx = (.ok (), next))

include run

/-- The types registered are known by their names, as these are theirs alone. -/
theorem typeNamed_upTo (schema : ∃ extension, ctx.schema = Catalog.schema extension)
    (among : done ⊆ propertyTypes) {name : String} {key : TypeKey} (member : key ∈ keysUpTo done)
    (goes : (ctx.typeOf key).name = name ∨ (ctx.typeOf key).typeName = name) :
    next.typeNamed name = .ok key := by
  have known := typeOf_mem schema (known_of_mem_keysUpTo among member)
  rw [← filterMap_type?_upTo] at member
  obtain ⟨enrolment, there, type⟩ := List.mem_filterMap.1 member
  refine Enrolment.typeNamed_of_named run
    ⟨enrolment, there, Enrolment.named?_eq_some_iff.2 ⟨type, goes⟩⟩ fun other here otherKey named => ?_
  obtain ⟨otherMember, otherGoes⟩ := mem_keysUpTo_of_named here named
  refine key_eq_of_name _ (typeOf_mem schema (known_of_mem_keysUpTo among otherMember)) _ known ?_
  dsimp only
  rcases otherGoes with rfl | rfl <;> rcases goes with same | same <;> simp [same]

theorem registeredUpTo (schema : ∃ extension, ctx.schema = Catalog.schema extension)
    (among : done ⊆ propertyTypes) :
    RegisteredUpTo done ctx next ((ctx.variants.get? objectProperties).getD
      { name := objectProperties, key := propertiesTag }) := by
  have variants : ∀ name, next.variants.get? name =
      (upTo done).foldl (onRegistry name) (ctx.variants.get? name) := Enrolment.variants_forM run
  simp only [upTo, List.foldl_append, Enrolment.foldl_onRegistry_tagged, List.foldl_cons,
    List.foldl_nil, onRegistry] at variants
  -- each of the two registries is defined once, and only one is added to
  have apart : domainSpecificProperties ≠ objectProperties := by decide
  refine ⟨?_, ?_, ?_, ?_, ?_, ?_⟩
  · rw [Enrolment.types_forM run, documentTypes_upTo, ← typeName_grouping schema]
    rfl
  · rw [Context.registry, variants]
    cases ctx.variants.get? objectProperties <;> simp [apart]
  · rw [Context.registry, variants]
    cases ctx.variants.get? domainSpecificProperties <;> simp [apart.symm]
  · intro name other otherToo
    rw [Context.registry, variants, if_neg other.symm, if_neg otherToo.symm, if_neg other.symm]
    rfl
  · exact fun key member => ⟨typeNamed_upTo run schema among member (.inl rfl),
      typeNamed_upTo run schema among member (.inr rfl)⟩
  · intro name none
    refine Enrolment.typeNamed_of_unnamed run fun enrolment member => ?_
    cases named : enrolment.named? ctx.schema name with
    | none => rfl
    | some key =>
      obtain ⟨there, goes⟩ := mem_keysUpTo_of_named member named
      obtain ⟨first, second⟩ := none key there
      exact (goes.elim first second).elim

/-- Nothing was bound to what is registered. -/
theorem fresh_upTo (schema : ∃ extension, ctx.schema = Catalog.schema extension) :
    ctx.types.get? "grouping" = none ∧ ∀ properties, ctx.registry objectProperties = .ok properties →
      ∀ entry ∈ done, properties.get? entry.1 = none := by
  refine ⟨?_, fun properties found entry member => ?_⟩
  · cases taken : ctx.types.get? "grouping" with
    | none => rfl
    | some bound =>
      rw [← typeName_grouping schema] at taken
      have there : .type groupingKey ∈ upTo done := by simp [upTo]
      obtain ⟨err, failed⟩ := Enrolment.forM_refused there (Enrolment.type_refused taken)
      rw [run] at failed
      cases failed
  · cases taken : properties.get? entry.1 with
    | none => rfl
    | some bound =>
      have there : .tagged objectProperties entry.1 entry.2 ∈ upTo done :=
        List.mem_append_right _ (List.mem_map.2 ⟨entry, member, rfl⟩)
      obtain ⟨err, failed⟩ := Enrolment.forM_refused there (Enrolment.tagged_refused found taken)
      rw [run] at failed
      cases failed

/-- A tag of properties that is refused after others of the catalog was bound before. -/
theorem bound_of_refused (schema : ∃ extension, ctx.schema = Catalog.schema extension)
    {tag : String} {type : TypeKey} {rest : List (String × TypeKey)}
    (parts : propertyTypes = done ++ (tag, type) :: rest) {err : EntityError}
    (refused : (Registration.registerTagged objectProperties tag type).run.run next =
      (.error err, next)) :
    ∃ properties, ctx.registry objectProperties = .ok properties ∧
      (∃ bound, properties.get? tag = some bound) ∧
      err = .duplicateRegistration properties.name tag ∧
      RegisteredUpTo done ctx next properties := by
  have outcome := registeredUpTo run schema (by rw [parts]; exact List.subset_append_left _ _)
  -- the tags are distinct, so the one that is refused was not registered on the way
  have another : Table.get? done tag = none := by
    have distinct : (propertyTypes.map (·.1)).Nodup := by decide
    rw [parts, List.map_append, List.nodup_append] at distinct
    exact Table.get?_eq_none_iff.2 fun there => distinct.2.2 tag there tag (by simp) rfl
  rcases Enrolment.registerTagged_refused.1 (congrArg (·.1) refused) with
    absent | ⟨registry, found, ⟨bound, taken⟩, same⟩
  · rw [outcome.properties] at absent
    cases absent
  rw [outcome.properties] at found
  obtain rfl := Except.ok.inj found
  unfold Registry.get? at taken
  rw [Table.get?_append, another, Option.or_none] at taken
  cases there : ctx.variants.get? objectProperties with
  | none =>
    rw [there] at taken
    cases taken
  | some properties =>
    rw [there, Option.getD_some] at taken same outcome
    exact ⟨properties, by rw [Context.registry, there], ⟨bound, taken⟩, same, outcome⟩

omit run

/-- Of what comes before the properties, only the type of groupings may be refused. -/
theorem opening_failed {err : EntityError}
    (failed : ((upTo []).forM Enrolment.register).run.run ctx = (.error err, next)) :
    (Registration.registerType groupingKey).run.run ctx = (.error err, next) := by
  obtain ⟨before, refused, rest, whole, accepted, last⟩ := Enrolment.forM_failed failed
  cases before with
  | nil =>
    obtain ⟨rfl, -⟩ := List.cons.inj whole
    obtain rfl := (Prod.mk.inj accepted).2
    exact last
  | cons first before =>
    -- names and registries are never refused
    have later : refused ∈ (upTo []).tail := by
      rw [whole]
      simp
    simp only [upTo, List.map_nil, List.append_nil, List.tail_cons, List.mem_cons, List.not_mem_nil,
      or_false] at later
    rcases later with rfl | rfl | rfl <;> cases last

/-- How registering the catalog is refused: at the tag of groupings, which changes nothing, or at the
first tag of properties that is bound, which leaves what comes before it registered. -/
inductive Refusal (ctx : Context) : EntityError → Context → Prop where
  | grouping {bound : TypeKey} (taken : ctx.types.get? "grouping" = some bound) :
      Refusal ctx (.duplicateRegistration ctx.types.name "grouping") ctx
  | properties {next : Context} {properties : Registry} {done rest : List (String × TypeKey)}
      {tag : String} {type bound : TypeKey} (free : ctx.types.get? "grouping" = none)
      (found : ctx.registry objectProperties = .ok properties)
      (parts : propertyTypes = done ++ (tag, type) :: rest)
      (fresh : ∀ entry ∈ done, properties.get? entry.1 = none)
      (taken : properties.get? tag = some bound)
      (left : RegisteredUpTo done ctx next properties) :
      Refusal ctx (.duplicateRegistration properties.name tag) next

theorem refusal_of_failed (schema : ∃ extension, ctx.schema = Catalog.schema extension)
    {err : EntityError} (failed : register.run.run ctx = (.error err, next)) :
    Refusal ctx err next := by
  have opening : enrolments = upTo [] ++ propertyTypes.map fun (tag, type) =>
      .tagged objectProperties tag type := rfl
  rw [register_eq, opening, Enrolment.forM_append_run] at failed
  rcases first : ((upTo []).forM Enrolment.register).run.run ctx with ⟨other | _, between⟩
  · -- the opening is refused, which only the tag of groupings can be
    rw [first] at failed
    cases failed
    have same := Enrolment.register_failed (.type groupingKey) (opening_failed first)
    have refused := Enrolment.registerType_refused.1 (congrArg (·.1) (opening_failed first))
    rw [typeName_grouping schema] at refused
    obtain ⟨⟨bound, taken⟩, rfl⟩ := refused
    rw [same]
    exact .grouping taken
  · rw [first] at failed
    obtain ⟨before, refused, after, whole, accepted, last⟩ := Enrolment.forM_failed failed
    obtain ⟨done, later, parts, rfl, tail⟩ := List.map_eq_append_iff.1 whole
    obtain ⟨⟨tag, type⟩, rest, rfl, rfl, -⟩ := List.map_eq_cons_iff.1 tail
    -- up to the property that is refused all enrolments were accepted
    have run : ((upTo done).forM Enrolment.register).run.run ctx = (.ok (), next) := by
      rw [show upTo done = upTo [] ++ done.map fun (tag, type) =>
        .tagged objectProperties tag type from rfl, Enrolment.forM_append_run, first]
      exact accepted
    obtain ⟨free, fresh⟩ := fresh_upTo run schema
    obtain ⟨properties, found, ⟨bound, taken⟩, rfl, left⟩ := bound_of_refused run schema parts last
    exact .properties free found parts (fresh properties found) taken left

/-- **Registering the catalog is not all or nothing.** It fails just if the tag of groupings or a tag
of the catalog's properties is bound, and then it changes nothing in the first case. In the other
groupings, objects, the registries and the properties before the first that is refused stay
registered, and all else is as it was. -/
theorem register_refused (schema : ∃ extension, ctx.schema = Catalog.schema extension) :
    ((∃ err, (register.run.run ctx).1 = .error err) ↔
      (∃ bound, ctx.types.get? "grouping" = some bound) ∨
        ∃ properties, ctx.registry objectProperties = .ok properties ∧
          ∃ entry ∈ propertyTypes, ∃ bound, properties.get? entry.1 = some bound) ∧
    ∀ err next, register.run.run ctx = (.error err, next) → Refusal ctx err next := by
  refine ⟨⟨?_, ?_⟩, fun err next => refusal_of_failed schema⟩
  · rintro ⟨err, outcome⟩
    obtain ⟨next, run⟩ : ∃ next, register.run.run ctx = (.error err, next) :=
      ⟨_, Prod.ext outcome rfl⟩
    cases refusal_of_failed schema run with
    | grouping taken => exact .inl ⟨_, taken⟩
    | @properties _ properties _ _ tag type bound _ found parts _ taken _ =>
      exact .inr ⟨properties, found, (tag, type), by rw [parts]; simp, bound, taken⟩
  · rw [register_eq]
    rintro (⟨bound, taken⟩ | ⟨properties, found, entry, member, bound, taken⟩)
    · rw [← typeName_grouping schema] at taken
      have there : .type groupingKey ∈ enrolments := by simp [enrolments]
      exact Enrolment.forM_refused there (Enrolment.type_refused taken)
    · have there : .tagged objectProperties entry.1 entry.2 ∈ enrolments :=
        List.mem_append_right _ (List.mem_map.2 ⟨entry, member, rfl⟩)
      exact Enrolment.forM_refused there (Enrolment.tagged_refused found taken)

end Outcome

/-- A context in which files are picked as another type already. -/
def fileTaken : Context where
  schema := schema fun _ => uriType
  ids := .sequential
  clock := .fixed .epoch
  variants := [(objectProperties, ⟨objectProperties, propertiesTag, [("FileObjectType", uriKey)]⟩)]

/-- The tag of files is bound, so the registration fails, and it fails there. -/
theorem fileTaken_refused :
    (∃ extension, fileTaken.schema = schema extension) ∧
    (∃ err, (register.run.run fileTaken).1 = .error err) ∧
    ∃ next, register.run.run fileTaken =
        (.error (.duplicateRegistration objectProperties "FileObjectType"), next) ∧
      Refusal fileTaken (.duplicateRegistration objectProperties "FileObjectType") next := by
  have known : ∃ extension, fileTaken.schema = schema extension := ⟨_, rfl⟩
  obtain ⟨fails, refusal⟩ := register_refused known
  have taken : ∃ entry ∈ propertyTypes,
      ∃ bound, Table.get? [("FileObjectType", uriKey)] entry.1 = some bound :=
    ⟨("FileObjectType", fileKey), by decide, uriKey, rfl⟩
  exact ⟨known, fails.2 (.inr ⟨_, rfl, taken⟩), _, rfl, refusal _ _ rfl⟩

/-- **Not all or nothing**: the registration fails, and the tags, the registries and the names are
others than before. -/
theorem fileTaken_begun :
    ∃ err next, register.run.run fileTaken = (.error err, next) ∧
      fileTaken.types.tags = [] ∧ next.types.tags = ["grouping"] ∧
      Registry.tags <$> fileTaken.registry objectProperties = .ok ["FileObjectType"] ∧
      Registry.tags <$> next.registry objectProperties =
        .ok ["FileObjectType", "AddressObjectType"] ∧
      fileTaken.typeNamed "Grouping" = .error (.unknownType "Grouping") ∧
      next.typeNamed "Grouping" = .ok groupingKey :=
  ⟨_, _, rfl, rfl, rfl, rfl, rfl, rfl, rfl⟩

end Catalog

end Dossier
