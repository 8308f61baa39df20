import Dossier.Catalog.Grouping
import Dossier.Catalog.Object
import Dossier.Document
import Dossier.Proofs.Drafting

/-!
# Failed operations

An operation that fails has drawn from the sources of identifiers and time and
asked deferred defaults, and done nothing else: no hook of its own has run, and the
entity that was to be changed is what it was. That no hook has run is said by putting
other hooks in their place: `Request.apply_failed`. What a deferred default does is
not taken back, so where one builds entities on its own there is a trace of them:
`Request.house_refused`.
-/

namespace Dossier

/-- The context with its hooks replaced, those that a name stands for and the one that caches. -/
def Context.hooked (ctx : Context) (hooks : String → Entity → Store → Store) (caching : Bool) :
    Context :=
  { ctx with hooks, config := { ctx.config with cacheEntities := caching } }

section Hooked

variable (ctx : Context) (hooks : String → Entity → Store → Store) (caching : Bool)

@[simp] theorem Context.hooked_schema : (ctx.hooked hooks caching).schema = ctx.schema := rfl

@[simp] theorem Context.hooked_keepsExtras (t : EntityType) :
    (ctx.hooked hooks caching).keepsExtras t = ctx.keepsExtras t := rfl

theorem Build.eq_congruence : Build.Congruence Eq where
  pure _ := rfl
  fail _ := rfl
  leave _ := rfl
  drawId _ _ := rfl
  readClock _ := rfl
  bind same later := by rw [same, funext later]
  attempt same := by rw [same]
  within segment same := by rw [same]

/-- What is built does not depend on the hooks. -/
theorem Context.build_hooked : (ctx.hooked hooks caching).build = ctx.build := by
  have same : ctx.build.Related Eq (ctx.refitted hooks caching ctx.defaults).build :=
    build_refitted hooks caching ctx.defaults Build.eq_congruence fun _ _ _ _ _ _ => rfl
  funext type supplied
  exact (same type supplied).symm

theorem Entity.setField_hooked (e : Entity) (f : Field) (value : Value) :
    e.setField (ctx.hooked hooks caching) f value = e.setField ctx f value := by
  have coerced : f.coerce (ctx.hooked hooks caching) ctx.build (e.type ctx.schema) value =
      f.coerce ctx ctx.build (e.type ctx.schema) value :=
    f.coerce_refitted ctx hooks caching ctx.defaults ctx.build (e.type ctx.schema) value
  unfold setField
  simp only [Context.build_hooked, Context.hooked_schema, coerced]

end Hooked

/-- Where the first operation fails it has only drafted, and the second fails the same way. -/
def Action.FailAlike (ctx : Context) {α : Type} (x y : Action α) : Prop :=
  ∀ store e after, x.run.run store = (.error e, after) →
    (∃ asks, ctx.Drafts store asks after) ∧ y.run.run store = (.error e, after)

namespace Action.FailAlike

variable {ctx : Context} {α β : Type}

theorem throw (e : EntityError) : FailAlike ctx (throw e : Action α) (throw e) := by
  intro store reason after run
  obtain ⟨same, rfl⟩ := Prod.mk.inj run
  exact ⟨⟨[], .refl⟩, run⟩

theorem pure (value : α) : FailAlike ctx (pure value : Action α) (pure value) :=
  fun _ _ _ run => absurd (Prod.mk.inj run).1 (by simp)

/-- A build may be finished by any context: the hooks of a failed one are not run. -/
theorem finish {x : Build α} (drafts : x.Drafts ctx) (own other : Context) :
    FailAlike ctx (x.finish own) (x.finish other) := by
  intro store e after run
  obtain ⟨asks, drafted⟩ := drafts store
  rcases outcome : x store with ⟨_ | ⟨value, calls⟩, left⟩ <;> rw [outcome] at drafted
  · rw [Build.finish_run_error outcome] at run ⊢
    obtain ⟨-, rfl⟩ := Prod.mk.inj run
    exact ⟨⟨asks, drafted⟩, run⟩
  · rw [Build.finish_run_ok outcome] at run
    exact absurd (Prod.mk.inj run).1 (by simp)

/-- What can be told beforehand is told alike. -/
theorem except_bind {x : Except EntityError α} {f g : α → Action β}
    (later : ∀ value, x = .ok value → FailAlike ctx (f value) (g value)) :
    FailAlike ctx (liftM x >>= f) (liftM x >>= g) := by
  cases x with
  | ok value => exact later value rfl
  | error e => exact throw e

/-- What comes after an operation and cannot fail makes no difference. -/
theorem bind {x y : Action α} {f g : α → Action β} (h : FailAlike ctx x y)
    (safe : ∀ value store, ∃ result after, (f value).run.run store = (.ok result, after)) :
    FailAlike ctx (x >>= f) (y >>= g) := by
  intro store e after run
  rcases outcome : x.run.run store with ⟨error | value, between⟩
  · rw [bind_run_error outcome] at run
    obtain ⟨drafted, other⟩ := h store error between outcome
    obtain ⟨told, rfl⟩ := Prod.mk.inj run
    obtain rfl := Except.error.inj told
    exact ⟨drafted, bind_run_error other g⟩
  · obtain ⟨result, last, succeeds⟩ := safe value between
    rw [bind_run_ok outcome, succeeds] at run
    exact absurd (Prod.mk.inj run).1 (by simp)

theorem map {x y : Action α} (f : α → β) (h : FailAlike ctx x y) :
    FailAlike ctx (f <$> x) (f <$> y) := by
  rw [map_eq_pure_bind, map_eq_pure_bind]
  exact h.bind fun value store => ⟨f value, store, rfl⟩

end Action.FailAlike

/-! ## Requests -/

/-- What may be asked for of an entity that is held: to make something new, or to change it. -/
inductive Request where
  | ofProperties (type : TypeKey) (properties : List (String × Value))
  | ofMapping (type : TypeKey) (supplied : Mapping)
  | ofJson (type : TypeKey) (document : Json)
  | parse (document : Document)
  | parseAs (typeName : String) (document : Document)
  | related (type : TypeKey) (record : Mapping)
  | relatedAs (type : TypeKey) (record : Mapping) (shown : Presentation)
  | grouping (draft : Catalog.Grouping.Draft)
  | set (name : String) (value : Value)
  | addRelated (related : Catalog.Object) (relationship : String) (isInline : Bool)

/-- What a request comes to: something new, or the held entity changed. -/
inductive Answer where
  | made (e : Entity)
  | madeRelated (r : RelatedObject)
  | changed (e : Entity)

namespace Request

def perform (ctx : Context) (held : Entity) : Request → Action Answer
  | ofProperties type properties => .made <$> Entity.ofProperties ctx type properties
  | ofMapping type supplied => .made <$> Entity.ofMapping ctx type supplied
  | ofJson type document => .made <$> Entity.ofJson ctx type document
  | parse document => .made <$> document.parse ctx
  | parseAs typeName document => .made <$> document.parseAs ctx typeName
  | related type record => .madeRelated <$> RelatedObject.ofMapping ctx type record
  | relatedAs type record shown => .madeRelated <$> RelatedObject.ofMappingAs ctx type record shown
  | grouping draft => (.made ·.entity) <$> draft.build ctx
  | set name value => .changed <$> held.set ctx name value
  | addRelated other relationship isInline =>
    (.changed ·.entity) <$> Catalog.Object.addRelated ctx ⟨held⟩ other relationship isInline

/-- A request carried out: what it comes to, and the entity that is then held. -/
def apply (ctx : Context) (held : Entity) (request : Request) (store : Store) :
    Except EntityError Answer × Entity × Store :=
  match (request.perform ctx held).run.run store with
  | (.ok (.changed e), store) => (.ok (.changed e), e, store)
  | (.ok answer, store) => (.ok answer, held, store)
  | (.error e, store) => (.error e, held, store)

section

variable (ctx : Context) (hooks : String → Entity → Store → Store) (caching : Bool)

theorem ofMapping_failAlike (type : TypeKey) (supplied : Mapping) :
    Action.FailAlike ctx (Entity.ofMapping ctx type supplied)
      (Entity.ofMapping (ctx.hooked hooks caching) type supplied) := by
  unfold Entity.ofMapping
  rw [Context.build_hooked]
  exact .finish (ctx.build_drafts type supplied) _ _

theorem ofJson_failAlike (type : TypeKey) (document : Json) :
    Action.FailAlike ctx (Entity.ofJson ctx type document)
      (Entity.ofJson (ctx.hooked hooks caching) type document) := by
  cases document with
  | object entries => exact ofMapping_failAlike ctx hooks caching type _
  | _ => exact .throw _

theorem parse_failAlike (document : Document) :
    Action.FailAlike ctx (document.parse ctx) (document.parse (ctx.hooked hooks caching)) := by
  refine .except_bind fun properties _ => ?_
  refine .except_bind fun type _ => ?_
  exact ofMapping_failAlike ctx hooks caching type properties

theorem parseAs_failAlike (typeName : String) (document : Document) :
    Action.FailAlike ctx (document.parseAs ctx typeName)
      (document.parseAs (ctx.hooked hooks caching) typeName) := by
  refine .except_bind fun type _ => ?_
  refine .except_bind fun properties _ => ?_
  exact ofMapping_failAlike ctx hooks caching type properties

theorem ofMappingAs_failAlike (type : TypeKey) (record : Mapping) (shown : Presentation) :
    Action.FailAlike ctx (RelatedObject.ofMappingAs ctx type record shown)
      (RelatedObject.ofMappingAs (ctx.hooked hooks caching) type record shown) := by
  unfold RelatedObject.ofMappingAs
  rw [Context.build_hooked]
  exact .finish (RelatedObject.ofRecord_drafts ctx type record shown) _ _

theorem set_failAlike (e : Entity) (name : String) (value : Value) :
    Action.FailAlike ctx (e.set ctx name value) (e.set (ctx.hooked hooks caching) name value) := by
  unfold Entity.set
  simp only [Entity.setField_hooked, Context.hooked_schema, Context.hooked_keepsExtras]
  -- a declared field is built, and a custom property is put in or refused
  cases (e.type ctx.schema).field? name with
  | some f => exact .finish (e.setField_drafts ctx f value) _ _
  | none =>
    by_cases keeps : ctx.keepsExtras (e.type ctx.schema) = true
    · simp only [keeps, if_true]
      exact .pure _
    · simp only [keeps]
      exact .throw _

theorem addRelated_failAlike (o other : Catalog.Object) (relationship : String)
    (isInline : Bool) :
    Action.FailAlike ctx (o.addRelated ctx other relationship isInline)
      (o.addRelated (ctx.hooked hooks caching) other relationship isInline) := by
  refine .except_bind fun related _ => ?_
  refine .except_bind fun list _ => ?_
  -- caching the changed object comes last and cannot fail
  refine .bind (set_failAlike ctx hooks caching o.entity _ _) fun changed store => ?_
  exact ⟨_, _, rfl⟩

/-- A request that fails does so whatever the hooks are. -/
theorem perform_failAlike (held : Entity) (request : Request) :
    Action.FailAlike ctx (request.perform ctx held)
      (request.perform (ctx.hooked hooks caching) held) := by
  cases request with
  | ofProperties type properties => exact .map _ (ofMapping_failAlike ctx hooks caching type _)
  | ofMapping type supplied => exact .map _ (ofMapping_failAlike ctx hooks caching type supplied)
  | ofJson type document => exact .map _ (ofJson_failAlike ctx hooks caching type document)
  | parse document => exact .map _ (parse_failAlike ctx hooks caching document)
  | parseAs typeName document =>
    exact .map _ (parseAs_failAlike ctx hooks caching typeName document)
  | related type record => exact .map _ (ofMappingAs_failAlike ctx hooks caching type record _)
  | relatedAs type record shown =>
    exact .map _ (ofMappingAs_failAlike ctx hooks caching type record shown)
  | grouping draft => exact .map _ (.map _ (ofMapping_failAlike ctx hooks caching _ _))
  | set name value => exact .map _ (set_failAlike ctx hooks caching held name value)
  | addRelated other relationship isInline =>
    exact .map _ (addRelated_failAlike ctx hooks caching ⟨held⟩ other relationship isInline)

end

/-- **What a failed operation leaves.** The entity that is held is what it was. The store was only
drafted on: the cache and the journal are what they were unless a deferred default that was asked
has changed them, and where there are none only the supply differs. With any other hooks the request
fails the same way, so none has run. -/
theorem apply_failed (ctx : Context) (held : Entity) (request : Request) (store : Store)
    {e : EntityError} {held' : Entity} {store' : Store}
    (failed : request.apply ctx held store = (.error e, held', store')) :
    held' = held ∧
    (∃ asks, ctx.Drafts store asks store' ∧
      ((∀ ask ∈ asks, (ask.left ctx).cache = ask.store.cache) → store'.cache = store.cache) ∧
      ((∀ ask ∈ asks, (ask.left ctx).journal = ask.store.journal) →
        store'.journal = store.journal)) ∧
    (ctx.schema.NoneDeferred → store' = { store with supply := store'.supply }) ∧
    ∀ hooks caching,
      request.apply (ctx.hooked hooks caching) held store = (.error e, held', store') := by
  rcases outcome : (request.perform ctx held).run.run store with ⟨error | answer, after⟩
  · rw [apply, outcome] at failed
    obtain ⟨told, rest⟩ := Prod.mk.inj failed
    obtain ⟨rfl, rfl⟩ := Prod.mk.inj rest
    obtain rfl := Except.error.inj told
    have alike := fun hooks caching =>
      perform_failAlike ctx hooks caching held request store error after outcome
    obtain ⟨asks, drafted⟩ := (alike ctx.hooks true).1
    refine ⟨rfl, ⟨asks, drafted, drafted.cache_eq, drafted.journal_eq⟩,
      drafted.eq_of_noneDeferred, fun hooks caching => ?_⟩
    rw [apply, (alike hooks caching).2]
  · rw [apply, outcome] at failed
    cases answer <;> exact absurd (Prod.mk.inj failed).1 (by simp)

/-- The catalog's types with nothing registered, and identifiers counted. -/
def bareContext : Context where
  schema := Catalog.schema fun _ => Catalog.objectType
  ids := .sequential
  clock := .fixed .epoch

/-- An object with an object inside, which is built and is to be cached, and with a property
that objects do not have. -/
def colouredObject : Request :=
  .ofMapping Catalog.objectKey
    [("related_objects", .list [.mapping [("state", .string "seen")]]),
      ("colour", .string "red")]

theorem colouredObject_failed :
    colouredObject.apply bareContext ⟨Catalog.objectKey, [], []⟩ {} =
      (.error (.unexpectedProperties "Object" ["colour"]), ⟨Catalog.objectKey, [], []⟩,
        { supply := { drawn := 2 } }) ∧
    ∀ hooks caching,
      colouredObject.apply (bareContext.hooked hooks caching) ⟨Catalog.objectKey, [], []⟩ {} =
        (.error (.unexpectedProperties "Object" ["colour"]), ⟨Catalog.objectKey, [], []⟩,
          { supply := { drawn := 2 } }) :=
  ⟨rfl, (apply_failed bareContext _ colouredObject {} rfl).2.2.2⟩

/-! ## A default that builds -/

def houseKey : TypeKey := ⟨"House"⟩

/-- A house must have a street. Its keeper is appointed if none was supplied. -/
def houseType : EntityType where
  name := "House"
  typeName := "house"
  fields := [
    (Field.entity "keeper" Catalog.objectKey).withDefault (.deferred "appoint"),
    (Field.text "street").require]

def keeper : Entity where
  typeKey := Catalog.objectKey
  values :=
    [("id", .string "object--00000000-0000-4000-8000-000000000009"), ("state", .string "new")]
  extras := []

/-- Builds the keeper on its own, with the hooks of the catalog's objects. -/
def appoint (ctx : Context) (store : Store) : Option Value × Store :=
  match (Entity.ofMapping ctx Catalog.objectKey keeper.values).run.run store with
  | (.ok e, store) => (some (.entity e), store)
  | (.error _, store) => (none, store)

/-- The keeper is built, and is in the cache at once. -/
theorem appoint_run (store : Store) :
    appoint bareContext store = (some (.entity keeper), bareContext.cacheEntity keeper store) := rfl

/-- The bare context with houses. The keeper is built in the bare one, for which objects are what
they are here: a default is part of its context and cannot name it. -/
def houseContext : Context :=
  { bareContext with
    schema := Catalog.schema fun _ => houseType
    defaults := fun _ _ => appoint bareContext }

def keeperCached : Store where
  cache := ⟨[("object--00000000-0000-4000-8000-000000000009", keeper)]⟩

/-- A house without a street is refused, and its keeper is in the cache: the hooks of what a default
builds on its own do not wait for the house. -/
theorem house_refused :
    (ofMapping houseKey []).apply houseContext ⟨houseKey, [], []⟩ {} =
      (.error (.missingProperties "House" ["street"]), ⟨houseKey, [], []⟩, keeperCached) ∧
    keeperCached.cache ≠ ({} : Store).cache := by
  refine ⟨?_, by simp [keeperCached]⟩
  rw [houseContext, funext appoint_run]
  rfl

end Request

end Dossier
