import Mathlib.Data.List.Nodup
import Dossier.Catalog.Types
import Dossier.Proofs.Registries

/-!
# Runs of registrations

Registrations come in any order, and any of them may fail. Whichever do, a tag stays
bound to the type that it was first registered with, and registries keep their keys and
list new tags after the old ones (`RegistrationCall.tags_kept`). With names this is not
so: the last type registered that goes by a name is the one that is found by it, and
what is parsed under the name is built as that type (`RegistrationCall.typeNamed_after`).
-/

namespace Dossier

/-- A registry that has taken on types, each at its end. -/
structure Registry.Extends (old new : Registry) : Prop where
  name : new.name = old.name
  key : new.key = old.key
  entries : old.entries <+: new.entries

namespace Registry

variable {old new : Registry} {tag : String} {type : TypeKey}

theorem Extends.refl (r : Registry) : r.Extends r := ⟨rfl, rfl, List.prefix_rfl⟩

theorem Extends.trans {last : Registry} (h : old.Extends new) (later : new.Extends last) :
    old.Extends last :=
  ⟨later.name.trans h.name, later.key.trans h.key, h.entries.trans later.entries⟩

theorem Extends.tags (h : old.Extends new) : old.tags <+: new.tags := h.entries.map _

theorem Extends.get? (h : old.Extends new) (bound : old.get? tag = some type) :
    new.get? tag = some type := by
  obtain ⟨added, whole⟩ := h.entries
  show Table.get? new.entries tag = _
  rw [← whole, Table.get?_append, show Table.get? old.entries tag = _ from bound]
  rfl

/-- A registry that has taken on one type, under a tag that comes last. -/
structure Binds (old new : Registry) (tag : String) (type : TypeKey) : Prop where
  grown : old.Extends new
  tags : new.tags = old.tags ++ [tag]
  bound : new.get? tag = some type

theorem register_binds (registered : old.register tag type = .ok new) :
    old.Binds new tag type := by
  unfold register at registered
  split at registered
  · cases registered
  · next fresh =>
    cases registered
    have absent : tag ∉ Table.keys old.entries :=
      Table.get?_eq_none_iff.1 (by simpa [Table.contains] using fresh)
    refine ⟨⟨rfl, rfl, ?_⟩, ?_, ?_⟩
    · rw [Table.insert_of_absent absent]
      exact List.prefix_append _ _
    · exact (Table.keys_insert ..).trans (if_neg absent)
    · exact (Table.get?_insert ..).trans (if_pos rfl)

/-- Just the tags that are bound are refused. -/
theorem register_eq_error (type : TypeKey) {err : EntityError} :
    old.register tag type = .error err ↔
      (∃ bound, old.get? tag = some bound) ∧ err = .duplicateRegistration old.name tag := by
  rw [← Option.isSome_iff_exists]
  unfold register get? Table.contains
  split
  · next bound => simp [bound, eq_comm]
  · next fresh => simp [fresh]

end Registry

/-- A context whose registries have taken on types, and some more registries perhaps. -/
structure Context.Extends (old new : Context) : Prop where
  schema : new.schema = old.schema
  types : old.types.Extends new.types
  variants : ∀ name r, old.registry name = .ok r → ∃ s, new.registry name = .ok s ∧ r.Extends s

namespace Context.Extends

variable {old new last : Context}

/-- The types of documents take on some more, and the other registries none. -/
theorem grow {ctx : Context} {grown : Registry} (grows : ctx.types.Extends grown)
    (names : Table TypeKey) : ctx.Extends { ctx with types := grown, names } :=
  ⟨rfl, grows, fun _ r found => ⟨r, found, .refl r⟩⟩

theorem refl (ctx : Context) : ctx.Extends ctx := grow (.refl _) ctx.names

theorem trans (h : old.Extends new) (later : new.Extends last) : old.Extends last where
  schema := later.schema.trans h.schema
  types := h.types.trans later.types
  variants name r found := by
    obtain ⟨s, there, grown⟩ := h.variants name r found
    obtain ⟨t, still, further⟩ := later.variants name s there
    exact ⟨t, still, grown.trans further⟩

/-- A registry is put in where there is none of the name, or for one that it extends. -/
theorem insert {ctx : Context} {name : String} {grown : Registry}
    (grows : ∀ r, ctx.registry name = .ok r → r.Extends grown) :
    ctx.Extends { ctx with variants := ctx.variants.insert name grown } where
  schema := rfl
  types := .refl _
  variants other r found := by
    by_cases same : name = other
    · subst same
      exact ⟨grown, by simp [registry], grows r found⟩
    · refine ⟨r, ?_, .refl r⟩
      unfold registry at found ⊢
      rwa [Table.get?_insert, if_neg same]

end Context.Extends

/-! ## Enrolments -/

namespace Enrolment

variable {ctx next : Context} {err : EntityError}

/-- The type that an enrolment makes known by its names. -/
def type? : Enrolment → Option TypeKey
  | names key => some key
  | type key => some key
  | registry .. => none
  | tagged _ _ key => some key

/-- The type that an enrolment makes known by a name. -/
def named? (schema : Schema) (name : String) (enrolment : Enrolment) : Option TypeKey :=
  enrolment.type?.filter fun key =>
    (schema.typeOf key).name = name ∨ (schema.typeOf key).typeName = name

/-- What an enrolment does where it succeeds: registries have only grown, and the names of its type
are that type's from then on. -/
structure Accepted (enrolment : Enrolment) (ctx next : Context) : Prop where
  grown : ctx.Extends next
  names : ∀ name,
    next.names.get? name = (enrolment.named? ctx.schema name).or (ctx.names.get? name)

/-- Names are registered where registries may have grown before. -/
theorem accepted_names {enrolment : Enrolment} {key : TypeKey} (own : enrolment.type? = some key)
    {between : Context} (grown : ctx.Extends between) (unnamed : between.names = ctx.names) :
    ∃ next, (Registration.registerNames key).run.run between = (.ok (), next) ∧
      enrolment.Accepted ctx next := by
  refine ⟨_, rfl, grown.trans (.grow (.refl _) _), fun name => ?_⟩
  have named : enrolment.named? ctx.schema name = Option.filter (fun key =>
      (between.typeOf key).name = name ∨ (between.typeOf key).typeName = name) (some key) := by
    rw [named?, own, ← grown.schema]
    rfl
  rw [named, ← unnamed, Table.get?_insert, Table.get?_insert, Option.filter]
  by_cases second : (between.typeOf key).typeName = name
  · simp [second]
  · by_cases first : (between.typeOf key).name = name
    · simp [second, first]
    · simp [second, first]

/-- **Step: an enrolment is refused and changes nothing, or is accepted.** -/
theorem register_cases (enrolment : Enrolment) (ctx : Context) :
    (∃ err, enrolment.register.run.run ctx = (.error err, ctx)) ∨
      ∃ next, enrolment.register.run.run ctx = (.ok (), next) ∧ enrolment.Accepted ctx next := by
  cases enrolment with
  | names key => exact .inr (accepted_names rfl (.refl ctx) rfl)
  | type key =>
    rw [register, Registration.registerType_run]
    cases registered : ctx.types.register (ctx.typeOf key).typeName key with
    | error err => exact .inl ⟨err, rfl⟩
    | ok types =>
      exact .inr (accepted_names rfl (.grow (Registry.register_binds registered).grown _) rfl)
  | registry name tagKey =>
    refine .inr ⟨_, rfl, ?_⟩
    show Accepted _ ctx (if ctx.variants.contains name then ctx
      else { ctx with variants := ctx.variants.insert name { name, key := tagKey } })
    split
    · exact ⟨.refl ctx, fun _ => rfl⟩
    · next fresh =>
      -- it is new, so there is nothing that it could shadow
      have absent : ctx.variants.get? name = none := by simpa [Table.contains] using fresh
      refine ⟨.insert fun r found => ?_, fun _ => rfl⟩
      rw [Context.registry, absent] at found
      cases found
  | tagged name tag key =>
    rw [register, Registration.registerTagged_run]
    cases found : ctx.registry name with
    | error err => exact .inl ⟨err, rfl⟩
    | ok old =>
      dsimp only
      cases registered : old.register tag key with
      | error err => exact .inl ⟨err, rfl⟩
      | ok new =>
        refine .inr (accepted_names rfl (.insert fun r there => ?_) rfl)
        obtain rfl := Except.ok.inj (found.symm.trans there)
        exact (Registry.register_binds registered).grown

/-- **An enrolment that fails changes nothing.** -/
theorem register_failed (enrolment : Enrolment)
    (run : enrolment.register.run.run ctx = (.error err, next)) : next = ctx := by
  rcases enrolment.register_cases ctx with ⟨other, refused⟩ | ⟨other, done, -⟩
  · exact (Prod.mk.inj (run.symm.trans refused)).2
  · cases run.symm.trans done

theorem registerType_refused {key : TypeKey} :
    ((Registration.registerType key).run.run ctx).1 = .error err ↔
      (∃ bound, ctx.types.get? (ctx.typeOf key).typeName = some bound) ∧
        err = .duplicateRegistration ctx.types.name (ctx.typeOf key).typeName := by
  rw [← Registry.register_eq_error key, Registration.registerType_run]
  cases ctx.types.register (ctx.typeOf key).typeName key with
  | error e => simp
  | ok types => constructor <;> rintro ⟨⟩

theorem registerTagged_refused {name tag : String} {key : TypeKey} :
    ((Registration.registerTagged name tag key).run.run ctx).1 = .error err ↔
      ctx.registry name = .error err ∨ ∃ r, ctx.registry name = .ok r ∧
        (∃ bound, r.get? tag = some bound) ∧ err = .duplicateRegistration r.name tag := by
  rw [Registration.registerTagged_run]
  cases found : ctx.registry name with
  | error e => simp
  | ok old =>
    simp only [Except.ok.injEq, reduceCtorEq, false_or, exists_eq_left',
      ← Registry.register_eq_error key]
    cases old.register tag key with
    | error e => simp
    | ok new => constructor <;> rintro ⟨⟩

theorem registerType_binds {key : TypeKey}
    (run : (Registration.registerType key).run.run ctx = (.ok (), next)) :
    ctx.types.Binds next.types (ctx.typeOf key).typeName key := by
  rw [Registration.registerType_run] at run
  split at run
  · cases run
  · next types registered =>
    have same : types = next.types := congrArg (·.2.types) run
    rw [← same]
    exact Registry.register_binds registered

theorem registerTagged_binds {name tag : String} {key : TypeKey}
    (run : (Registration.registerTagged name tag key).run.run ctx = (.ok (), next)) :
    ∃ old new, ctx.registry name = .ok old ∧ next.registry name = .ok new ∧
      old.Binds new tag key := by
  obtain ⟨old, new, found, registered, grown⟩ := Registration.registerTagged_ok run
  refine ⟨old, new, ?_, ?_, Registry.register_binds registered⟩
  · simp [Context.registry, found]
  · simp [Context.registry, grown]

/-- One enrolment after the other, up to the first that fails. -/
theorem forM_cons_run (enrolment : Enrolment) (more : List Enrolment) (ctx : Context) :
    ((enrolment :: more).forM register).run.run ctx =
      match enrolment.register.run.run ctx with
      | (.ok (), next) => (more.forM register).run.run next
      | (.error err, next) => (.error err, next) := by
  have first : (enrolment :: more).forM register =
      (enrolment.register >>= fun _ => more.forM register) := rfl
  rw [first, ExceptT.run_bind, StateT.run_bind]
  rcases enrolment.register.run.run ctx with ⟨_ | _, next⟩ <;> rfl

/-- The enrolments that take effect, which are those before the first that fails. -/
def accepted : List Enrolment → Context → List Enrolment
  | [], _ => []
  | enrolment :: more, ctx =>
    match enrolment.register.run.run ctx with
    | (.ok (), next) => enrolment :: accepted more next
    | (.error _, _) => []

theorem extends_forM (enrolments : List Enrolment) (ctx : Context) :
    ctx.Extends ((enrolments.forM register).run.run ctx).2 := by
  induction enrolments generalizing ctx with
  | nil => exact .refl ctx
  | cons enrolment more ih =>
    rw [forM_cons_run]
    rcases enrolment.register_cases ctx with ⟨err, refused⟩ | ⟨next, done, step⟩
    · rw [refused]
      exact .refl ctx
    · rw [done]
      exact step.grown.trans (ih next)

/-- A name is that of the last type that was enrolled and goes by it. -/
theorem names_forM (enrolments : List Enrolment) (ctx : Context) (name : String) :
    ((enrolments.forM register).run.run ctx).2.names.get? name =
      ((accepted enrolments ctx).filterMap (named? ctx.schema name)).getLast?.or
        (ctx.names.get? name) := by
  induction enrolments generalizing ctx with
  | nil => rfl
  | cons enrolment more ih =>
    rw [forM_cons_run, accepted]
    rcases enrolment.register_cases ctx with ⟨err, refused⟩ | ⟨next, done, step⟩
    · rw [refused]
      rfl
    · rw [done]
      dsimp only
      rw [ih, step.names, step.grown.schema, List.filterMap_cons]
      cases enrolment.named? ctx.schema name with
      | none => rfl
      | some key => simp [List.getLast?_cons]

end Enrolment

/-! ## Calls -/

/-- The enrolments that registering the catalog comes to. -/
def Catalog.enrolments : List Enrolment :=
  [.type groupingKey, .names objectKey, .registry objectProperties propertiesTag,
    .registry domainSpecificProperties propertiesTag] ++
    propertyTypes.map fun (tag, type) => .tagged objectProperties tag type

theorem Catalog.register_eq : register = enrolments.forM Enrolment.register := rfl

/-- What a client calls to register something. Each call may fail. -/
inductive RegistrationCall where
  | one (enrolment : Enrolment)
  | catalog

namespace RegistrationCall

def perform : RegistrationCall → Registration Unit
  | one enrolment => enrolment.register
  | catalog => Catalog.register

def steps : RegistrationCall → List Enrolment
  | one enrolment => [enrolment]
  | catalog => Catalog.enrolments

theorem perform_eq (call : RegistrationCall) :
    call.perform = call.steps.forM Enrolment.register := by
  cases call with
  | one enrolment => simp [perform, steps]
  | catalog => exact Catalog.register_eq

/-- The context after calls, whichever of them fail. -/
def after : List RegistrationCall → Context → Context
  | [], ctx => ctx
  | call :: calls, ctx => after calls (call.perform.run.run ctx).2

/-- What has taken effect of the calls, in order. -/
def log : List RegistrationCall → Context → List Enrolment
  | [], _ => []
  | call :: calls, ctx =>
    Enrolment.accepted call.steps ctx ++ log calls (call.perform.run.run ctx).2

/-- Run: registries only grow. By induction on the calls. -/
theorem extends_after (calls : List RegistrationCall) (ctx : Context) :
    ctx.Extends (after calls ctx) := by
  induction calls generalizing ctx with
  | nil => exact .refl ctx
  | cons call calls ih =>
    have first := Enrolment.extends_forM call.steps ctx
    rw [← call.perform_eq] at first
    exact first.trans (ih _)

/-- Run: a name is that of the last type registered that goes by it. By induction on the calls. -/
theorem names_after (calls : List RegistrationCall) (ctx : Context) (name : String) :
    (after calls ctx).names.get? name =
      ((log calls ctx).filterMap (Enrolment.named? ctx.schema name)).getLast?.or
        (ctx.names.get? name) := by
  induction calls generalizing ctx with
  | nil => rfl
  | cons call calls ih =>
    have grown := Enrolment.extends_forM call.steps ctx
    have first := Enrolment.names_forM call.steps ctx name
    rw [← call.perform_eq] at grown first
    rw [after, ih, log, List.filterMap_append, List.getLast?_append, first, grown.schema,
      Option.or_assoc]

/-- **Tags are never rebound**, by whatever calls in whatever order, whichever of them fail. What is
bound to a type, among the types of documents or in a registry, stays bound to it; registries keep
their keys and list new tags at the end. A type is refused just if its tag is bound already, and for
a registry also if there is no such registry; what is refused changes nothing at all, and what is
not is bound. -/
theorem tags_kept (calls : List RegistrationCall) (ctx : Context) :
    let later := after calls ctx
    (later.types.key = ctx.types.key ∧ ctx.types.tags <+: later.types.tags ∧
      ∀ tag type, ctx.types.get? tag = some type → later.types.get? tag = some type) ∧
    (∀ name old, ctx.registry name = .ok old → ∃ new, later.registry name = .ok new ∧
      new.key = old.key ∧ old.tags <+: new.tags ∧
      ∀ tag type, old.get? tag = some type → new.get? tag = some type) ∧
    (∀ type err, ((Registration.registerType type).run.run later).1 = .error err ↔
      let tag := (later.typeOf type).typeName
      (∃ bound, later.types.get? tag = some bound) ∧
        err = .duplicateRegistration later.types.name tag) ∧
    (∀ name tag type err,
      ((Registration.registerTagged name tag type).run.run later).1 = .error err ↔
        later.registry name = .error err ∨ ∃ registry, later.registry name = .ok registry ∧
          (∃ bound, registry.get? tag = some bound) ∧
            err = .duplicateRegistration registry.name tag) ∧
    (∀ (enrolment : Enrolment) err next,
      enrolment.register.run.run later = (.error err, next) → next = later) ∧
    (∀ type next, (Registration.registerType type).run.run later = (.ok (), next) →
      later.types.Binds next.types (later.typeOf type).typeName type) ∧
    ∀ name tag type next,
      (Registration.registerTagged name tag type).run.run later = (.ok (), next) →
        ∃ old new, later.registry name = .ok old ∧ next.registry name = .ok new ∧
          old.Binds new tag type := by
  have grown := extends_after calls ctx
  refine ⟨⟨grown.types.key, grown.types.tags, fun _ _ => grown.types.get?⟩, ?_, ?_, ?_, ?_, ?_,
    ?_⟩
  · intro name old found
    obtain ⟨new, there, extension⟩ := grown.variants name old found
    exact ⟨new, there, extension.key, extension.tags, fun _ _ => extension.get?⟩
  · exact fun type err => Enrolment.registerType_refused
  · exact fun name tag type err => Enrolment.registerTagged_refused
  · exact fun enrolment err next => enrolment.register_failed
  · exact fun type next => Enrolment.registerType_binds
  · exact fun name tag type next => Enrolment.registerTagged_binds

end RegistrationCall

/-- What is parsed under a name is of the type that is found by it. -/
theorem Document.parseAs_typeKey {ctx : Context} {name : String} {type : TypeKey}
    (found : ctx.typeNamed name = .ok type) (document : Document) :
    (document.parseAs ctx name).Ensures (·.typeKey = type) := by
  refine .except_bind fun other same => .except_bind fun properties _ => ?_
  obtain rfl := Except.ok.inj (found.symm.trans same)
  apply Action.Ensures.finish
  exact (ctx.build_fits (Q := fun _ => True) (fun _ _ _ => trivial) (fun _ _ => trivial) type
    fun _ _ _ _ => trivial).mono fun e => And.left

/-- **A name is taken over** by the last type registered since that goes by it, and that is the type
of whatever is parsed under the name. The name keeps its type as long as no other type is registered,
in whichever way, that goes by it. -/
theorem RegistrationCall.typeNamed_after {ctx : Context} {name : String} {type : TypeKey}
    (found : ctx.typeNamed name = .ok type) (calls : List RegistrationCall) :
    let later := after calls ctx
    let since := (log calls ctx).filterMap (Enrolment.named? ctx.schema name)
    later.typeNamed name = .ok (since.getLast?.getD type) ∧
    ((∀ other ∈ since, other = type) → later.typeNamed name = .ok type) ∧
    ∀ (document : Document) store e last,
      (document.parseAs later name).run.run store = (.ok e, last) →
        e.typeKey = since.getLast?.getD type := by
  intro later since
  have before : ctx.names.get? name = some type := by
    unfold Context.typeNamed at found
    split at found
    · next there =>
      cases found
      exact there
    · cases found
  -- the last of the calls that name the type has the say
  have now : later.typeNamed name = .ok (since.getLast?.getD type) := by
    unfold Context.typeNamed
    rw [show later.names.get? name = _ from names_after calls ctx name, before, Option.or_some]
  refine ⟨now, fun same => ?_, fun document store e last run => ?_⟩
  · rw [now]
    cases latest : since.getLast? with
    | none => rfl
    | some other => rw [Option.getD_some, same other (List.mem_of_getLast? latest)]
  · exact (Document.parseAs_typeKey now document) _ _ _ run

/-! ## Namesakes -/

namespace Namesakes

def personKey : TypeKey := ⟨"Person"⟩
def namesakeKey : TypeKey := ⟨"Namesake"⟩

/-- Two types that messages call by the same name. -/
def types (key : TypeKey) : EntityType where
  name := "Person"
  typeName := if key = namesakeKey then "people" else "person"
  fields := [(Field.text "name").require]
  distinct := List.nodup_singleton _

/-- A context in which persons are known by their names, with a registry of attachments. -/
def context : Context where
  schema := { typeOf := types }
  ids := .sequential
  clock := .fixed .epoch
  names := [("Person", personKey), ("person", personKey)]
  variants := [("attachments", { name := "attachments", key := "kind" })]

/-- The namesake is registered as an attachment. -/
def calls : List RegistrationCall := [.one (.tagged "attachments" "Shadow" namesakeKey)]

def document : Document := .json (.object [("name", .string "Ada")])

/-- The namesake takes over the name that the two share. -/
theorem namesake_named :
    context.typeNamed "Person" = .ok personKey ∧
    (RegistrationCall.after calls context).typeNamed "Person" = .ok namesakeKey := by
  have found : context.typeNamed "Person" = .ok personKey := rfl
  exact ⟨found, (RegistrationCall.typeNamed_after found calls).1⟩

/-- Registering the namesake as an attachment succeeds, and persons are parsed as namesakes from
then on. -/
theorem person_shadowed :
    context.typeNamed "Person" = .ok personKey ∧
    (∃ last, (document.parseAs context "Person").run.run {} =
      (.ok ⟨personKey, [("name", .string "Ada")], []⟩, last)) ∧
    ((Registration.registerTagged "attachments" "Shadow" namesakeKey).run.run context).1 = .ok () ∧
    (RegistrationCall.after calls context).typeNamed "Person" = .ok namesakeKey ∧
    ∃ last, (document.parseAs (RegistrationCall.after calls context) "Person").run.run {} =
      (.ok ⟨namesakeKey, [("name", .string "Ada")], []⟩, last) :=
  ⟨rfl, ⟨_, rfl⟩, rfl, rfl, ⟨_, rfl⟩⟩

end Namesakes

end Dossier
