import Dossier.Proofs.RecordTrip

/-!
# What registries read back

A registry admits an entity by its type, whatever tag the type stands under, and reads
a mapping by the text under its key, which an entity writes as its type's own tag or as
a property of its own. The two agree where the type is registered under its own tag
and the tag's key is the registry's. `Enrolled.pick_accepted` says which type is read
in any case, by the registrations that have made the context.
-/

namespace Dossier

/-- The key that registrations make a registry with: that of the first of them. -/
def Enrolment.keyOf? (name : String) (calls : List Enrolment) : Option String :=
  calls.findSome? fun
    | registry other key => if other = name then some key else none
    | _ => none

/-- The contexts that come of registrations, all of them successful, in one without registries. -/
inductive Enrolled : List Enrolment → Context → Prop where
  | start {ctx : Context} (empty : ctx.variants = []) : Enrolled [] ctx
  | step {calls : List Enrolment} {ctx next : Context} (before : Enrolled calls ctx)
    (call : Enrolment) (run : call.register.run.run ctx = (.ok (), next)) :
    Enrolled (calls ++ [call]) next

/-- A registry is what some registrations have made of it: each of its types stands under the tag
that it was registered with. -/
structure Registry.Reflects (calls : List Enrolment) (name : String) (r : Registry) : Prop where
  named : r.name = name
  key : Enrolment.keyOf? name calls = some r.key
  distinct : Table.Distinct r.entries
  entry : ∀ tag type, r.get? tag = some type ↔ .tagged name tag type ∈ calls

/-- Nothing has been registered for a registry. -/
structure Enrolment.Spares (calls : List Enrolment) (name : String) : Prop where
  key : keyOf? name calls = none
  entry : ∀ tag type, .tagged name tag type ∉ calls

namespace Registry.Reflects

variable {calls : List Enrolment} {name : String} {r : Registry}

/-- A registration that adds nothing to the registry leaves it as it is. -/
theorem append (h : r.Reflects calls name) {call : Enrolment}
    (other : ∀ tag type, call ≠ .tagged name tag type) : r.Reflects (calls ++ [call]) name where
  named := h.named
  key := by
    have key := h.key
    unfold Enrolment.keyOf? at key ⊢
    rw [List.findSome?_append, key]
    rfl
  distinct := h.distinct
  entry := by
    intro tag type
    simp [h.entry, Ne.symm (other tag type)]

/-- A registry that is made has no types. -/
theorem define (spares : Enrolment.Spares calls name) (key : String) :
    Reflects (calls ++ [.registry name key]) name { name, key } where
  named := rfl
  key := by
    have none := spares.key
    unfold Enrolment.keyOf? at none ⊢
    rw [List.findSome?_append, none]
    simp
  distinct := List.nodup_nil
  entry := by
    intro tag type
    simp [Registry.get?, spares.entry]

/-- A type that is added stands under its tag. -/
theorem register (h : r.Reflects calls name) {tag : String} {type : TypeKey} {grown : Registry}
    (registered : r.register tag type = .ok grown) :
    grown.Reflects (calls ++ [.tagged name tag type]) name := by
  unfold Registry.register at registered
  split at registered
  · cases registered
  · next fresh =>
    obtain rfl := Except.ok.inj registered
    have absent : r.get? tag = none := by simpa [Table.contains, Registry.get?] using fresh
    refine ⟨h.named, ?_, h.distinct.insert tag type, ?_⟩
    · have key := h.key
      unfold Enrolment.keyOf? at key ⊢
      rw [List.findSome?_append, key]
      rfl
    · intro other found
      show Table.get? (r.entries.insert tag type) other = some found ↔ _
      rw [Table.get?_insert, List.mem_append, ← h.entry]
      by_cases same : tag = other
      · subst same
        rw [absent]
        simp [eq_comm]
      · simp [same, Ne.symm same, Registry.get?]

end Registry.Reflects

theorem Enrolment.Spares.append {calls : List Enrolment} {name : String} (h : Spares calls name)
    {call : Enrolment} (defines : ∀ key, call ≠ .registry name key)
    (other : ∀ tag type, call ≠ .tagged name tag type) : Spares (calls ++ [call]) name where
  key := by
    have none := h.key
    unfold keyOf? at none ⊢
    rw [List.findSome?_append, none]
    cases call with
    | registry found key =>
      have apart : found ≠ name := by
        rintro rfl
        exact defines key rfl
      simp [apart]
    | _ => rfl
  entry := by
    intro tag type
    simp [h.entry, Ne.symm (other tag type)]

/-- Every registry of a context is what registrations have made of it. -/
def Context.Reflects (calls : List Enrolment) (ctx : Context) : Prop :=
  ∀ name, (∀ r, ctx.variants.get? name = some r → r.Reflects calls name) ∧
    (ctx.variants.get? name = none → Enrolment.Spares calls name)

/-! ## What a registration does -/

namespace Registration

variable {ctx next : Context}

theorem registerType_variants {type : TypeKey}
    (run : (registerType type).run.run ctx = (.ok (), next)) :
    next.variants = ctx.variants := by
  obtain rfl : ((registerType type).run.run ctx).2 = next := congrArg (·.2) run
  rcases registerType_cases type ctx with same | ⟨types, grown⟩
  · rw [same]
  · rw [grown]
    rfl

/-- A type is added to a registry that there is. -/
theorem registerTagged_ok {name tag : String} {type : TypeKey}
    (run : (registerTagged name tag type).run.run ctx = (.ok (), next)) :
    ∃ old new, ctx.variants.get? name = some old ∧ old.register tag type = .ok new ∧
      next.variants = ctx.variants.insert name new := by
  rw [registerTagged_run] at run
  unfold Context.registry at run
  cases found : ctx.variants.get? name with
  | none =>
    simp only [found] at run
    cases (Prod.mk.inj run).1
  | some old =>
    simp only [found] at run
    cases registered : old.register tag type with
    | error e =>
      simp only [registered] at run
      cases (Prod.mk.inj run).1
    | ok new =>
      simp only [registered] at run
      obtain rfl := (Prod.mk.inj run).2
      exact ⟨old, new, rfl, registered, rfl⟩

end Registration

/-- Step: a successful registration is reflected. -/
theorem Context.Reflects.step {calls : List Enrolment} {ctx next : Context}
    (h : ctx.Reflects calls) {call : Enrolment}
    (run : call.register.run.run ctx = (.ok (), next)) : next.Reflects (calls ++ [call]) := by
  intro name
  obtain ⟨reflects, spares⟩ := h name
  cases call with
  | names key =>
    have same : next.variants = ctx.variants := congrArg (·.2.variants) run.symm
    rw [same]
    exact ⟨fun r found => (reflects r found).append (by simp),
      fun none => (spares none).append (by simp) (by simp)⟩
  | type key =>
    rw [Registration.registerType_variants run]
    exact ⟨fun r found => (reflects r found).append (by simp),
      fun none => (spares none).append (by simp) (by simp)⟩
  | registry defined key =>
    have whole : next = if ctx.variants.contains defined then ctx
        else { ctx with variants := ctx.variants.insert defined { name := defined, key } } :=
      congrArg (·.2) run.symm
    -- a registry that is there already is left as it is
    by_cases there : ctx.variants.contains defined = true
    · rw [if_pos there] at whole
      subst whole
      refine ⟨fun r found => (reflects r found).append (by simp), fun none => ?_⟩
      refine (spares none).append ?_ (by simp)
      rintro other ⟨⟩
      rw [Table.contains, none] at there
      cases there
    · rw [if_neg there] at whole
      subst whole
      have absent : ctx.variants.get? defined = none := by simpa [Table.contains] using there
      simp only [Table.get?_insert]
      by_cases same : defined = name
      · subst same
        simp only [if_true]
        refine ⟨?_, fun none => by cases none⟩
        rintro r ⟨⟩
        -- nothing has been said about a registry that is not there, so it starts empty
        exact .define (spares absent) key
      · simp only [same, if_false]
        exact ⟨fun r found => (reflects r found).append (by simp),
          fun none => (spares none).append (by simp [same]) (by simp)⟩
  | tagged registry tag type =>
    obtain ⟨old, new, found, registered, grown⟩ := Registration.registerTagged_ok run
    rw [grown]
    simp only [Table.get?_insert]
    by_cases same : registry = name
    · subst same
      simp only [if_true]
      refine ⟨?_, fun none => by cases none⟩
      rintro r ⟨⟩
      exact (reflects old found).register registered
    · simp only [same, if_false]
      exact ⟨fun r found => (reflects r found).append (by simp [same]),
        fun none => (spares none).append (by simp) (by simp [same])⟩

/-- **Registries are what registrations make of them.** By induction on the registrations. -/
theorem Enrolled.reflects {calls : List Enrolment} {ctx : Context} (h : Enrolled calls ctx) :
    ctx.Reflects calls := by
  induction h with
  | start empty =>
    intro name
    rw [empty]
    exact ⟨fun r found => (by cases found), fun _ => ⟨rfl, fun _ _ => List.not_mem_nil⟩⟩
  | step _ call run before => exact before.step run

/-- The text that a value is written as, if it is written as one. -/
def Value.text? : Value → Option String
  | string s => some s
  | timestamp t => some t.text
  | _ => none

/-- The text that an entity is written with under a key: its type's tag, or a property of its
own. -/
def Entity.label? (schema : Schema) (e : Entity) (key : String) : Option String :=
  match (e.type schema).separateTag? with
  | some tag => if tag.key = key then some tag.value else (e.get? key).bind (·.text?)
  | none => (e.get? key).bind (·.text?)

/-- A value is read as a text if it is written as one. -/
theorem Value.string?_ofJson (schema : Schema) (value : Value) :
    (((some (value.toJson schema)).filter (!·.isNull)).map Value.ofJson).bind (·.string?) =
      value.text? := by
  cases value with
  | number x => cases x <;> rfl
  | integer i =>
    show (some (Value.ofJson (Json.ofInt64 i))).bind (·.string?) = none
    rw [ofJson_ofInt64]
    rfl
  | _ => rfl

theorem Entity.Laid.label {ctx : Context} {e : Entity} (h : e.Laid ctx) (key : String) :
    (Table.get? (Mapping.ofJson (e.canonical ctx.schema)) key).bind (·.string?) =
      e.label? ctx.schema key := by
  have distinct := h.distinct_written Json.string (·.toJson ctx.schema)
  have own : (((Table.get? ((e.values ++ e.extras).map
      fun entry => (entry.1, entry.2.toJson ctx.schema)) key).filter (!·.isNull)).map
        Value.ofJson).bind (·.string?) = (e.get? key).bind (·.text?) := by
    rw [Table.get?_map, Table.get?_append, Entity.get?]
    cases (Table.get? e.values key).or (Table.get? e.extras key) with
    | none => rfl
    | some value => exact Value.string?_ofJson ctx.schema value
  rw [h.canonical_eq, Mapping.get?_ofJson distinct, Table.get?_append, label?, EntityType.tagEntry]
  cases tagged : (e.type ctx.schema).separateTag? with
  | none => exact own
  | some tag =>
    -- the tag comes first and hides what else is under its key
    by_cases same : tag.key = key
    · subst same
      have first : Table.get? [(tag.key, Json.string tag.value)] tag.key =
        some (.string tag.value) := if_pos rfl
      simp only [Option.map_some, Option.toList_some, first, Option.some_or, if_true]
      rfl
    · simpa [Table.get?, same] using own

/-! ## Entities that a registry admits -/

/-- An entity is taken by a polymorphic field as it is, if its type is in the registry. -/
theorem Field.coerceKind_entity_ok {ctx : Context} {build : Builder} {owner : EntityType}
    {f : Field} {name : String} (kind : f.kind = .polymorphic name) {segment : String} {e : Entity}
    {store after : Store} {value : Value} {hooks : List HookCall}
    (run : f.coerceKind ctx build owner segment (.entity e) store = (.ok (value, hooks), after)) :
    ∃ registry, ctx.variants.get? name = some registry ∧
      registry.knowsType ctx.schema (e.type ctx.schema) = true ∧ value = .entity e := by
  unfold coerceKind at run
  rw [kind] at run
  simp only [coercePolymorphic] at run
  cases found : ctx.variants.get? name with
  | none =>
    simp only [Context.registry, found] at run
    cases (Prod.mk.inj run).1
  | some registry =>
    simp only [Context.registry, found] at run
    by_cases known : registry.knowsType ctx.schema (e.type ctx.schema) = true
    · refine ⟨registry, rfl, known, ?_⟩
      obtain ⟨_, _, _, _, gave, rest, -⟩ := Build.bind_eq_ok run
      obtain rfl := (Prod.mk.inj (Except.ok.inj (Prod.mk.inj gave).1)).1
      simp only [known, if_true] at rest
      exact (Prod.mk.inj (Except.ok.inj (Prod.mk.inj rest).1)).1.symm
    · obtain ⟨_, _, _, _, gave, rest, -⟩ := Build.bind_eq_ok run
      obtain rfl := (Prod.mk.inj (Except.ok.inj (Prod.mk.inj gave).1)).1
      simp only [known] at rest
      cases (Prod.mk.inj rest).1

/-- **What a registry reads back of what it admits.** After successful registrations, an entity that
a polymorphic field takes as it is is of a type that was registered under some tag. What it is
written as is read as the type registered under the text that it has under the registry's key, its
type's own tag or a property of its own, and as no type if there is none. So where the own tag is
under the registry's key, it is read as the type registered under that tag: as its own type, and no
other, if that is where it was registered. -/
theorem Enrolled.pick_accepted {calls : List Enrolment} {ctx : Context} (h : Enrolled calls ctx)
    {maker : Context} (schema : maker.schema = ctx.schema) {e : Entity} (made : e.Made maker)
    {build : Builder} {owner : EntityType} {f : Field} {name : String}
    (kind : f.kind = .polymorphic name) {segment : String} {store after : Store} {value : Value}
    {hooks : List HookCall}
    (accepted : f.coerceKind ctx build owner segment (.entity e) store =
      (.ok (value, hooks), after)) :
    ∃ registry, ctx.registry name = .ok registry ∧
      Enrolment.keyOf? name calls = some registry.key ∧
      (∃ tag type, .tagged name tag type ∈ calls ∧
        (ctx.typeOf type).sameAs (e.type ctx.schema) = true) ∧
      let written := Mapping.ofJson (e.canonical ctx.schema)
      (∀ type, registry.pick written = .ok type ↔
        ∃ tag, e.label? ctx.schema registry.key = some tag ∧ .tagged name tag type ∈ calls) ∧
      (e.label? ctx.schema registry.key = none →
        registry.pick written = .error (.missingDiscriminator name registry.key)) ∧
      (∀ tag, e.label? ctx.schema registry.key = some tag →
        (∀ type, .tagged name tag type ∉ calls) →
          registry.pick written = .error (.unknownDiscriminator name tag)) ∧
      ∀ own, (e.type ctx.schema).separateTag? = some own → own.key = registry.key →
        ∀ type, .tagged name own.value type ∈ calls → registry.pick written = .ok type := by
  obtain ⟨registry, found, known, -⟩ := Field.coerceKind_entity_ok kind accepted
  have reflects := (h.reflects name).1 registry found
  have label := made.arranged.laid.label registry.key
  rw [schema] at label
  -- what the registry reads is the label, and what it knows are the calls
  have picked : ∀ type, registry.pick (Mapping.ofJson (e.canonical ctx.schema)) = .ok type ↔
      ∃ tag, e.label? ctx.schema registry.key = some tag ∧ .tagged name tag type ∈ calls := by
    intro type
    rw [Registry.pick_eq_ok, label]
    exact exists_congr fun tag => and_congr_right fun _ => reflects.entry tag type
  refine ⟨registry, by rw [Context.registry, found], reflects.key, ?_, picked, ?_, ?_, ?_⟩
  · obtain ⟨⟨tag, type⟩, member, same⟩ := List.any_eq_true.1 known
    exact ⟨tag, type, (reflects.entry tag type).1 (reflects.distinct.get?_of_mem member), same⟩
  · intro unlabelled
    rw [Registry.pick, label, unlabelled, reflects.named]
  · intro tag labelled unknown
    have absent : registry.get? tag = none := by
      cases there : registry.get? tag with
      | none => rfl
      | some type => exact absurd ((reflects.entry tag type).1 there) (unknown type)
    rw [Registry.pick, label, labelled, ← reflects.named]
    simp only [Registry.lookup, absent]
  · intro own tagged same type registered
    refine (picked type).2 ⟨own.value, ?_, registered⟩
    simp only [Entity.label?, tagged, same, if_true]

namespace Gallery

def linkKey : TypeKey := ⟨"Link"⟩
def imageKey : TypeKey := ⟨"Image"⟩
def personKey : TypeKey := ⟨"Person"⟩

/-- Links and images have tags of their own, and persons have none. -/
def types (key : TypeKey) : EntityType :=
  if key = linkKey then
    { name := "Link", typeName := "link", tag := some ⟨"kind", "LinkAttachment"⟩,
      fields := [(Field.text "url").require] }
  else if key = imageKey then
    { name := "Image", typeName := "image", tag := some ⟨"kind", "ImageAttachment"⟩,
      fields := [(Field.text "path").require] }
  else
    { name := "Person", typeName := "person", fields := [(Field.text "name").require] }

def base : Context where
  schema := { typeOf := types }
  ids := .sequential
  clock := .fixed .epoch

/-- The context after registrations. -/
def after (calls : List Enrolment) : Context := calls.foldl (fun ctx call => call.after ctx) base

/-- Links and images under their own tags. -/
def matching : List Enrolment :=
  [.registry "attachments" "kind", .tagged "attachments" "LinkAttachment" linkKey,
    .tagged "attachments" "ImageAttachment" imageKey]

/-- Images under the tag of links, links under another, and persons, who have no tag. -/
def crossed : List Enrolment :=
  [.registry "attachments" "kind", .tagged "attachments" "LinkAttachment" imageKey,
    .tagged "attachments" "Other" linkKey, .tagged "attachments" "PersonAttachment" personKey]

def link : Entity := ⟨linkKey, [("url", .string "here")], []⟩

def person : Entity := ⟨personKey, [("name", .string "Ada")], []⟩

def attachment : Field := .polymorphic "attachment" "attachments"

/-- An entity is taken for an attachment as it is. -/
def Attached (ctx : Context) (e : Entity) : Prop :=
  attachment.coerceKind ctx ctx.build (types personKey) "attachment" (.entity e) {} =
    (.ok (.entity e, []), {})

theorem matching_enrolled : Enrolled matching (after matching) := by
  have start : Enrolled [] base := .start rfl
  exact ((start.step (.registry "attachments" "kind") rfl).step
    (.tagged "attachments" "LinkAttachment" linkKey) rfl).step
    (.tagged "attachments" "ImageAttachment" imageKey) rfl

theorem crossed_enrolled : Enrolled crossed (after crossed) := by
  have start : Enrolled [] base := .start rfl
  exact (((start.step (.registry "attachments" "kind") rfl).step
    (.tagged "attachments" "LinkAttachment" imageKey) rfl).step
    (.tagged "attachments" "Other" linkKey) rfl).step
    (.tagged "attachments" "PersonAttachment" personKey) rfl

/-- A link is read back as a link where that is registered under its own tag. -/
theorem link_picked :
    ∃ registry, (after matching).registry "attachments" = .ok registry ∧
      registry.pick (Mapping.ofJson (link.canonical (after matching).schema)) = .ok linkKey := by
  have made : link.Made (after matching) :=
    ⟨linkKey, [("url", .string "here")], {}, _, by decide, rfl⟩
  have attached : Attached (after matching) link := rfl
  obtain ⟨registry, found, key, -, -, -, -, own⟩ :=
    matching_enrolled.pick_accepted rfl made rfl attached
  have kind : "kind" = registry.key := Option.some.inj key
  exact ⟨registry, found, own ⟨"kind", "LinkAttachment"⟩ rfl kind linkKey (by simp [matching])⟩

/-- A link is read back as an image where that is registered under its tag, and a person as
nothing. -/
theorem crossed_picked :
    Enrolled crossed (after crossed) ∧
    link.Made (after crossed) ∧ Attached (after crossed) link ∧
    person.Made (after crossed) ∧ Attached (after crossed) person ∧
    ∃ registry, (after crossed).registry "attachments" = .ok registry ∧
      registry.get? "Other" = some linkKey ∧
      registry.pick (Mapping.ofJson (link.canonical (after crossed).schema)) = .ok imageKey ∧
      registry.get? "PersonAttachment" = some personKey ∧
      registry.pick (Mapping.ofJson (person.canonical (after crossed).schema)) =
        .error (.missingDiscriminator "attachments" "kind") :=
  ⟨crossed_enrolled, ⟨linkKey, [("url", .string "here")], {}, _, by decide, rfl⟩, rfl,
    ⟨personKey, [("name", .string "Ada")], {}, _, by decide, rfl⟩, rfl,
    ⟨"attachments", "kind", [("LinkAttachment", imageKey), ("Other", linkKey),
      ("PersonAttachment", personKey)]⟩, rfl, rfl, rfl, rfl, rfl⟩

end Gallery

end Dossier
