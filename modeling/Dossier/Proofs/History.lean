import Dossier.Proofs.HookCalls

/-!
# Runs on a shared cache

Several clients, each with a context of its own, make, change and put entities on one
identity cache. Each operation logs what it registers: the entities whose hooks cache
them, the object that was related to another, what is put in by hand, and what deferred
defaults have put in when they were asked. The cache then holds the latest entity of each
identifier since it was last cleared, and references resolve to it
(`History.cache_reflects`).
-/

namespace Dossier

/-- What happens to an identity cache. -/
inductive CacheEvent where
  | put (e : Entity)
  | clear

namespace Cache

/-- The cache after an event. An entity without an identifier is not taken in. -/
def next (schema : Schema) (cache : Cache) : CacheEvent → Cache
  | .put e => cache.register schema e
  | .clear => {}

def replay (schema : Schema) (cache : Cache) (events : List CacheEvent) : Cache :=
  events.foldl (next schema) cache

theorem replay_append (schema : Schema) (cache : Cache) (before after : List CacheEvent) :
    replay schema cache (before ++ after) = replay schema (replay schema cache before) after :=
  List.foldl_append

/-- The entities put in after some others, as far as the cache was not cleared since. -/
def recentAfter (entities : List Entity) : List CacheEvent → List Entity
  | [] => entities
  | .put e :: events => recentAfter (entities ++ [e]) events
  | .clear :: events => recentAfter [] events

/-- The entities put in since the cache was last cleared. -/
def recent (events : List CacheEvent) : List Entity := recentAfter [] events

theorem replay_registerAll (schema : Schema) (entities : List Entity) (events : List CacheEvent) :
    replay schema (registerAll schema {} entities) events =
      registerAll schema {} (recentAfter entities events) := by
  induction events generalizing entities with
  | nil => rfl
  | cons event events ih =>
    cases event with
    | put e =>
      rw [recentAfter, ← ih, registerAll_append]
      rfl
    | clear => exact ih []

theorem replay_eq (schema : Schema) (events : List CacheEvent) :
    replay schema {} events = registerAll schema {} (recent events) :=
  replay_registerAll schema [] events

end Cache

/-! ## Clients -/

/-- A context over a schema, whose hooks with names and deferred defaults use the cache by putting
entities in and clearing it. -/
structure Client (schema : Schema) where
  ctx : Context
  schema_eq : ctx.schema = schema
  /-- What a hook does to the cache. -/
  deeds : (name : String) → Entity → Store → List CacheEvent
  deeds_eq : ∀ name e store,
    (ctx.hooks name e store).cache = store.cache.replay schema (deeds name e store)
  /-- What a deferred default does to the cache. -/
  asides : (name : String) → DefaultScope → Store → List CacheEvent
  asides_eq : ∀ name scope store,
    (ctx.defaults name scope store).2.cache = store.cache.replay schema (asides name scope store)

namespace Client

variable {schema : Schema}

def logOfHook (client : Client schema) (call : HookCall) (store : Store) : List CacheEvent :=
  match call.hook with
  | .cacheEntity => if client.ctx.config.cacheEntities then [.put call.entity] else []
  | .named name => client.deeds name call.entity store

/-- What hook calls do to the cache, one after the other. -/
def logOf (client : Client schema) : List HookCall → Store → List CacheEvent
  | [], _ => []
  | call :: calls, store =>
    client.logOfHook call store ++
      client.logOf calls (client.ctx.runHook call.hook call.entity store)

theorem cache_runHook (client : Client schema) (call : HookCall) (store : Store) :
    (client.ctx.runHook call.hook call.entity store).cache =
      store.cache.replay schema (client.logOfHook call store) := by
  unfold logOfHook
  cases call.hook with
  | cacheEntity =>
    rw [Context.runHook, Context.cacheEntity, client.schema_eq]
    dsimp only
    split <;> rfl
  | named name => exact client.deeds_eq name call.entity store

theorem cache_runHooks (client : Client schema) (calls : List HookCall) (store : Store) :
    (client.ctx.runHooks calls store).cache =
      store.cache.replay schema (client.logOf calls store) := by
  induction calls generalizing store with
  | nil => rfl
  | cons call calls ih =>
    rw [logOf, Cache.replay_append, ← cache_runHook]
    exact ih (client.ctx.runHook call.hook call.entity store)

/-- What deferred defaults that were asked have done to the cache, one after the other. -/
def logOfAsks (client : Client schema) (asks : List Ask) : List CacheEvent :=
  asks.flatMap fun ask => client.asides ask.name ask.scope ask.store

/-- Drawing does nothing to the cache. -/
theorem cache_drafts (client : Client schema) {store after : Store} {asks : List Ask}
    (h : client.ctx.Drafts store asks after) :
    after.cache = store.cache.replay schema (client.logOfAsks asks) := by
  induction h with
  | refl => rfl
  | draw _ ih => exact ih
  | read _ ih => exact ih
  | ask _ _ ih =>
    rw [logOfAsks, List.flatMap_append, List.flatMap_singleton, Cache.replay_append,
      ← logOfAsks, ← ih]
    exact client.asides_eq _ _ _

end Client

/-! ## The hook calls of a request -/

namespace Request

/-- The properties that a request supplies, where it is to make something new. -/
def supplied (ctx : Context) : Request → Mapping
  | ofProperties _ properties => Table.ofEntries properties
  | ofMapping _ supplied => supplied
  | ofJson _ document => ((Document.json document).toMapping ctx).toOption.getD []
  | parse document => (document.toMapping ctx).toOption.getD []
  | parseAs _ document => (document.toMapping ctx).toOption.getD []
  | related _ record => record
  | relatedAs _ record _ => record
  | grouping draft => draft.toMapping
  | set _ _ => []
  | addRelated _ _ _ => []

/-- The hook calls of an entity with a field set: those of what was built for it, and its own. -/
def callsOfSet (ctx : Context) (store : Store) (changed : Entity) (name : String) (value : Value) :
    List HookCall :=
  match (changed.type ctx.schema).field? name with
  | some f =>
    hookCallsOf ctx.schema
      ((Table.get? changed.values name).elim [] fun held => (held.builtFrom ctx value store).1) ++
    f.hook.toList.map (⟨·, changed⟩)
  | none => []

theorem callsOfSet_declared {ctx : Context} {store : Store} (changed : Entity) {name : String}
    {f : Field} (h : (changed.type ctx.schema).field? name = some f) (value : Value) :
    callsOfSet ctx store changed name value =
      hookCallsOf ctx.schema
        ((Table.get? changed.values name).elim [] fun held => (held.builtFrom ctx value store).1) ++
      f.hook.toList.map (⟨·, changed⟩) := by
  rw [callsOfSet, h]

theorem callsOfSet_undeclared {ctx : Context} {store : Store} (changed : Entity) {name : String}
    (h : (changed.type ctx.schema).field? name = none) (value : Value) :
    callsOfSet ctx store changed name value = [] := by
  rw [callsOfSet, h]

/-- The hook calls of a request that was made in a store and has come to an answer. Relating an
object has the object cached in any case. -/
def calls (ctx : Context) (store : Store) : Request → Answer → List HookCall
  | set name value, .changed e => callsOfSet ctx store e name value
  | addRelated _ _ _, .changed e =>
    callsOfSet ctx store e "related_objects" (.list []) ++ [⟨.cacheEntity, e⟩]
  | request, .made e => hookCallsOf ctx.schema (e.builtFrom ctx (request.supplied ctx) store).1
  | request, .madeRelated r =>
    hookCallsOf ctx.schema (r.builtFrom ctx (request.supplied ctx) store).1
  | _, .changed _ => []

end Request

/-- The context with hooks that do nothing. -/
def Context.hookless (ctx : Context) : Context := ctx.hooked (fun _ _ store => store) false

theorem Context.hookless_runHooks (ctx : Context) (calls : List HookCall) (store : Store) :
    ctx.hookless.runHooks calls store = store := by
  induction calls with
  | nil => rfl
  | cons call calls ih =>
    have first : ctx.hookless.runHook call.hook call.entity store = store := by
      cases call.hook <;> rfl
    show ctx.hookless.runHooks calls (ctx.hookless.runHook call.hook call.entity store) = store
    rw [first, ih]

/-- Where the first operation succeeds, the second comes to the same and only drafts; after that
the first runs hooks. -/
def Action.Defers {α : Type} (ctx : Context) (calls : Store → α → List HookCall) (x y : Action α) :
    Prop :=
  ∀ store value after, x.run.run store = (.ok value, after) →
    ∃ built, y.run.run store = (.ok value, built) ∧ (∃ asks, ctx.Drafts store asks built) ∧
      after = ctx.runHooks (calls store value) built

namespace Action.Defers

variable {α β : Type} {ctx : Context} {calls : Store → α → List HookCall}

theorem throw (e : EntityError) : Defers ctx calls (throw e) (throw e) :=
  fun _ _ _ run => absurd (Prod.mk.inj run).1 (by simp)

theorem pure {value : α} (none : ∀ store, calls store value = []) :
    Defers ctx calls (pure value) (pure value) := by
  intro store given after run
  obtain ⟨same, rfl⟩ := Prod.mk.inj run
  obtain rfl := Except.ok.inj same
  exact ⟨store, rfl, ⟨[], .refl⟩, by rw [none]; rfl⟩

theorem finish {x : Build α} (drafts : x.Drafts ctx)
    (h : ∀ store, x.Leaves store fun value left _ => left = calls store value) :
    Defers ctx calls (x.finish ctx) (x.finish ctx.hookless) := by
  intro store value after run
  obtain ⟨asks, drafted⟩ := drafts store
  rcases outcome : x store with ⟨e | ⟨given, left⟩, built⟩ <;> rw [outcome] at drafted
  · rw [Build.finish_run_error outcome] at run
    exact absurd (Prod.mk.inj run).1 (by simp)
  · rw [Build.finish_run_ok outcome] at run
    obtain ⟨same, rfl⟩ := Prod.mk.inj run
    obtain rfl := Except.ok.inj same
    obtain rfl := h _ _ _ _ outcome
    refine ⟨built, ?_, ⟨asks, drafted⟩, rfl⟩
    rw [Build.finish_run_ok outcome, Context.hookless_runHooks]

theorem except_bind {x : Except EntityError α} {f g : α → Action β}
    {calls : Store → β → List HookCall}
    (later : ∀ value, x = .ok value → Defers ctx calls (f value) (g value)) :
    Defers ctx calls (liftM x >>= f) (liftM x >>= g) := by
  cases x with
  | ok value => exact later value rfl
  | error e => exact throw e

theorem map {x y : Action α} (f : α → β) {calls : Store → β → List HookCall}
    (h : Defers ctx (fun store value => calls store (f value)) x y) :
    Defers ctx calls (f <$> x) (f <$> y) := by
  intro store result after run
  rw [map_eq_pure_bind] at run ⊢
  rcases outcome : x.run.run store with ⟨error | value, between⟩
  · rw [bind_run_error outcome] at run
    exact absurd (Prod.mk.inj run).1 (by simp)
  · rw [bind_run_ok outcome] at run
    obtain ⟨same, rfl⟩ := Prod.mk.inj run
    obtain rfl := Except.ok.inj same
    obtain ⟨built, quiet, drafted, rfl⟩ := h store value between outcome
    exact ⟨built, by rw [bind_run_ok quiet]; rfl, drafted, rfl⟩

end Action.Defers

namespace Request

variable (ctx : Context)

theorem ofMapping_defers (type : TypeKey) (m : Mapping) :
    Action.Defers ctx (fun store e => hookCallsOf ctx.schema (e.builtFrom ctx m store).1)
      (Entity.ofMapping ctx type m) (Entity.ofMapping ctx.hookless type m) := by
  unfold Entity.ofMapping
  rw [Context.hookless, Context.build_hooked]
  exact .finish (ctx.build_drafts type m) fun store =>
    (ctx.build_accounts type m store).mono fun _ _ _ accounts => accounts.calls_eq

theorem ofMappingAs_defers (type : TypeKey) (m : Mapping) (shown : Presentation) :
    Action.Defers ctx (fun store r => hookCallsOf ctx.schema (r.builtFrom ctx m store).1)
      (RelatedObject.ofMappingAs ctx type m shown)
      (RelatedObject.ofMappingAs ctx.hookless type m shown) := by
  unfold RelatedObject.ofMappingAs
  rw [Context.hookless, Context.build_hooked]
  exact .finish (RelatedObject.ofRecord_drafts ctx type m shown) fun store =>
    (RelatedObject.ofRecord_accounts ctx.build_accounts type m shown store).mono
      fun _ _ _ accounts => accounts.calls_eq

/-- A field that is set is built first, and then has its own hook called. -/
theorem setField_leaves (held : Entity) {f : Field}
    (declared : f ∈ (held.type ctx.schema).fields) (value : Value) (store : Store) :
    (held.setField ctx f value).Leaves store fun changed calls _ =>
      calls = callsOfSet ctx store changed f.name value := by
  unfold Entity.setField
  refine (Field.coerce_accounts ctx.build_accounts value store).bind
    fun stored nested between accounts => ?_
  generalize same : ({ held with values := Table.insert held.values f.name stored } : Entity) =
    changed
  -- first the calls of what was built for the value, then that of the field itself
  have own : nested ++ f.hook.toList.map (⟨·, changed⟩) =
      callsOfSet ctx store changed f.name value := by
    have found : (changed.type ctx.schema).field? f.name = some f :=
      same ▸ EntityType.field?_of_mem declared
    rw [callsOfSet_declared changed found, accounts.calls_eq, ← same]
    simp
  cases hooked : f.hook with
  | some hook =>
    rw [hooked] at own
    exact .leave own
  | none =>
    rw [hooked] at own
    exact .pure own

theorem set_defers (held : Entity) (name : String) (value : Value) :
    Action.Defers ctx (fun store changed => callsOfSet ctx store changed name value)
      (held.set ctx name value) (held.set ctx.hookless name value) := by
  unfold Entity.set
  simp only [Context.hookless, Entity.setField_hooked, Context.hooked_schema,
    Context.hooked_keepsExtras]
  cases found : (held.type ctx.schema).field? name with
  | some f =>
    obtain ⟨declared, rfl⟩ := EntityType.mem_of_field? found
    exact .finish (held.setField_drafts ctx f value) (setField_leaves ctx held declared value)
  | none =>
    by_cases keeps : ctx.keepsExtras (held.type ctx.schema) = true
    · simp only [keeps, if_true]
      exact .pure fun store => callsOfSet_undeclared ⟨_, _, _⟩ found value
    · simp only [keeps]
      exact .throw _

theorem toValue_depth (list : EntityList RelatedObject) : list.toValue.depth = 0 := by
  show Value.itemsDepth (list.items.map Listable.toValue) = 0
  induction list.items with
  | nil => rfl
  | cons r items ih => exact Nat.max_eq_zero_iff.2 ⟨rfl, ih⟩

/-- Nothing is built for values without mappings. -/
theorem callsOfSet_flat (store : Store) (changed : Entity) (name : String) {a b : Value}
    (flatA : a.depth = 0) (flatB : b.depth = 0) :
    callsOfSet ctx store changed name a = callsOfSet ctx store changed name b := by
  unfold callsOfSet
  cases Table.get? changed.values name with
  | none => rfl
  | some held => simp only [Option.elim_some, Value.builtFrom_flat ctx held store flatA,
      Value.builtFrom_flat ctx held store flatB]

theorem addRelated_defers (o other : Catalog.Object) (relationship : String) (isInline : Bool) :
    Action.Defers ctx
      (fun store changed => callsOfSet ctx store changed.entity "related_objects" (.list []) ++
        [⟨.cacheEntity, changed.entity⟩])
      (o.addRelated ctx other relationship isInline)
      (o.addRelated ctx.hookless other relationship isInline) := by
  refine .except_bind fun related _ => ?_
  refine .except_bind fun list _ => ?_
  intro store changed after run
  -- the object is set first, and then it is cached
  rcases outcome : (o.entity.set ctx "related_objects" list.toValue).run.run store with
    ⟨error | e, between⟩
  · rw [Action.bind_run_error outcome] at run
    exact absurd (Prod.mk.inj run).1 (by simp)
  · rw [Action.bind_run_ok outcome] at run
    obtain ⟨same, rfl⟩ := Prod.mk.inj run
    obtain rfl := Except.ok.inj same
    obtain ⟨built, quiet, drafted, rfl⟩ := set_defers ctx o.entity _ _ store e between outcome
    refine ⟨built, ?_, drafted, ?_⟩
    · rw [Action.bind_run_ok quiet]
      rfl
    · dsimp only
      rw [callsOfSet_flat ctx store e _ (toValue_depth list) (b := .list []) rfl,
        Context.runHooks, Context.runHooks, List.foldl_append]
      rfl

/-- A request that succeeds comes to what it does without hooks, and then runs those that it is
to call. -/
theorem perform_defers (held : Entity) (request : Request) :
    Action.Defers ctx (fun store => request.calls ctx store) (request.perform ctx held)
      (request.perform ctx.hookless held) := by
  cases request with
  | ofProperties type properties => exact .map _ (ofMapping_defers ctx type _)
  | ofMapping type supplied => exact .map _ (ofMapping_defers ctx type supplied)
  | ofJson type document =>
    cases document with
    | object entries => exact .map _ (ofMapping_defers ctx type _)
    | _ => exact .map _ (.throw _)
  | parse document =>
    refine .map _ (.except_bind fun properties found => .except_bind fun type _ => ?_)
    -- the calls are read off the mapping that the document stands for
    have same : (Request.parse document).supplied ctx = properties := by rw [supplied, found]; rfl
    exact same ▸ ofMapping_defers ctx type properties
  | parseAs typeName document =>
    refine .map _ (.except_bind fun type _ => .except_bind fun properties found => ?_)
    have same : (Request.parseAs typeName document).supplied ctx = properties := by
      rw [supplied, found]; rfl
    exact same ▸ ofMapping_defers ctx type properties
  | related type record => exact .map _ (ofMappingAs_defers ctx type record _)
  | relatedAs type record shown => exact .map _ (ofMappingAs_defers ctx type record shown)
  | grouping draft => exact .map _ (.map _ (ofMapping_defers ctx _ _))
  | set name value => exact .map _ (set_defers ctx held name value)
  | addRelated other relationship isInline =>
    exact .map _ (addRelated_defers ctx ⟨held⟩ other relationship isInline)

end Request

/-- What a client may do that concerns the cache, or that might. -/
inductive Operation where
  | ask (held : Entity) (request : Request)
  | unset (held : Entity) (name : String)
  | put (e : Entity)
  | clear

theorem Entity.put_run (ctx : Context) (e : Entity) (store : Store) :
    (e.put ctx).run.run store =
      match store.cache.put ctx.schema e with
      | .ok (replaced, cache) => (.ok replaced, { store with cache })
      | .error error => (.error error, store) := by
  have read : (get : Action Store).run.run store = (.ok store, store) := rfl
  rw [put, Action.bind_run_ok read]
  cases store.cache.put ctx.schema e <;> rfl

/-- Putting an entity in by hand does what caching it does, whatever the settings. -/
theorem Entity.cache_put (ctx : Context) (e : Entity) (store : Store) :
    ((e.put ctx).run.run store).2.cache = store.cache.register ctx.schema e := by
  rw [put_run, Cache.register]
  cases store.cache.put ctx.schema e <;> rfl

namespace Operation

/-- The store after an operation. To unset a property is a matter of the entity alone. -/
def after (ctx : Context) : Operation → Store → Store
  | ask held request, store => (request.apply ctx held store).2.2
  | unset _ _, store => store
  | put e, store => ((e.put ctx).run.run store).2
  | clear, store => (Action.clearCache.run.run store).2

/-- The deferred defaults that an operation may have asked: what it does to the store without its
hooks is to draw and to ask them. -/
def Asks (ctx : Context) : Operation → Store → List Ask → Prop
  | ask held request, store, asks =>
    ctx.Drafts store asks (request.apply ctx.hookless held store).2.2
  | unset _ _, _, asks => asks = []
  | put _, _, asks => asks = []
  | clear, _, asks => asks = []

variable {schema : Schema}

/-- What an operation does to the cache, by the deferred defaults that it has asked. A request that
succeeds then calls hooks, on the store as it is when all is built; one that fails does not. -/
def log (client : Client schema) (asks : List Ask) : Operation → Store → List CacheEvent
  | ask held request, store =>
    client.logOfAsks asks ++
      match request.apply client.ctx.hookless held store with
      | (.ok answer, _, built) => client.logOf (request.calls client.ctx store answer) built
      | (.error _, _, _) => []
  | unset _ _, _ => []
  | put e, _ => [.put e]
  | clear, _ => [.clear]

theorem log_ask {client : Client schema} {held next : Entity} {request : Request}
    {answer : Answer} {store built : Store}
    (h : request.apply client.ctx.hookless held store = (.ok answer, next, built))
    (asks : List Ask) :
    log client asks (ask held request) store =
      client.logOfAsks asks ++ client.logOf (request.calls client.ctx store answer) built := by
  simp only [log, h]

/-- Every operation has asked some deferred defaults, if only none. -/
theorem exists_asks (ctx : Context) (operation : Operation) (store : Store) :
    ∃ asks, operation.Asks ctx store asks := by
  cases operation with
  | ask held request =>
    rcases outcome : (request.perform ctx held).run.run store with ⟨e | answer, last⟩
    · obtain ⟨drafted, alike⟩ := Request.perform_failAlike ctx (fun _ _ store => store) false held
        request store e last outcome
      have quiet : (request.perform ctx.hookless held).run.run store = (.error e, last) := alike
      simpa only [Asks, Request.apply, quiet] using drafted
    · obtain ⟨built, quiet, drafted, -⟩ :=
        Request.perform_defers ctx held request store answer last outcome
      cases answer <;> simpa only [Asks, Request.apply, quiet] using drafted
  | _ => exact ⟨[], rfl⟩

/-- One operation changes the cache by what it logs. -/
theorem cache_after (client : Client schema) (operation : Operation) (store : Store)
    {asks : List Ask} (asked : operation.Asks client.ctx store asks) :
    (operation.after client.ctx store).cache =
      store.cache.replay schema (operation.log client asks store) := by
  cases operation with
  | ask held request =>
    have drafted := client.cache_drafts asked
    rw [log, Cache.replay_append, ← drafted]
    rcases outcome : (request.perform client.ctx held).run.run store with ⟨e | answer, last⟩
    · have quiet : (request.perform client.ctx.hookless held).run.run store = (.error e, last) :=
        (Request.perform_failAlike client.ctx (fun _ _ store => store) false held request store e
          last outcome).2
      simp only [after, Request.apply, outcome, quiet]
      rfl
    · -- it succeeded without its hooks, which then run on what was built
      obtain ⟨built, quiet, -, rfl⟩ :=
        Request.perform_defers client.ctx held request store answer last outcome
      have hooks := client.cache_runHooks (request.calls client.ctx store answer) built
      cases answer <;> simpa only [after, Request.apply, outcome, quiet] using hooks
  | unset held name => rfl
  | put e =>
    have put := e.cache_put client.ctx store
    rw [client.schema_eq] at put
    exact put
  | clear => rfl

end Operation

/-! ## Histories -/

/-- A cache that started out empty, with what has happened to it: operations of any clients, each
on a store of its own but for the cache. -/
inductive History (schema : Schema) : List CacheEvent → Cache → Prop where
  | start : History schema [] {}
  | step {events : List CacheEvent} {store : Store} (h : History schema events store.cache)
    (client : Client schema) (operation : Operation) {asks : List Ask}
    (asked : operation.Asks client.ctx store asks) :
    History schema (events ++ operation.log client asks store)
      (operation.after client.ctx store).cache

/-- By induction on the history, one operation at a time. -/
theorem History.cache_eq {schema : Schema} {events : List CacheEvent} {cache : Cache}
    (h : History schema events cache) :
    cache = Cache.registerAll schema {} (Cache.recent events) := by
  rw [← Cache.replay_eq]
  induction h with
  | start => rfl
  | step h client operation asked ih =>
    rw [operation.cache_after client _ asked, Cache.replay_append, ← ih]

/-- An identifier has the latest entity of it since the cache was cleared. -/
theorem History.get?_eq_latest? {schema : Schema} {events : List CacheEvent} {cache : Cache}
    (h : History schema events cache) (identifier : String) :
    cache.get? identifier = Entity.latest? schema (Cache.recent events) identifier := by
  rw [h.cache_eq, Cache.get?_registerAll]
  exact Option.or_none

/-- A reference resolves to that entity. -/
theorem History.find_byReference {schema : Schema} {events : List CacheEvent} {cache : Cache}
    (h : History schema events cache) (idref : String) (relationship : Option String) :
    (RelatedObject.byReference idref relationship).find cache =
      match Entity.latest? schema (Cache.recent events) idref with
      | some e => .ok (.cached e)
      | none => .error (.unresolvedReference idref) := by
  show RelatedObject.Found.cached <$> cache.lookup idref = _
  rw [Cache.lookup, h.get?_eq_latest?]
  cases Entity.latest? schema (Cache.recent events) idref <;> rfl

/-- The cache holds the latest entity of each identifier among some entities, and related objects
resolve to it. -/
structure Cache.Reflects (schema : Schema) (entities : List Entity) (cache : Cache) : Prop where
  keyed : ∀ key e, (key, e) ∈ cache.entries → e.identifier? schema = some key
  get?_eq : ∀ identifier, cache.get? identifier = Entity.latest? schema entities identifier
  size_eq : cache.size = (entities.filterMap (·.identifier? schema)).dedup.length
  /-- A reference resolves if some entity has its identifier. -/
  resolves : ∀ idref relationship,
    (∃ found, (RelatedObject.byReference idref relationship).find cache = .ok found) ↔
      ∃ e ∈ entities, e.identifier? schema = some idref
  /-- If none has, it is unresolved. -/
  unresolved : ∀ idref relationship, (∀ e ∈ entities, e.identifier? schema ≠ some idref) →
    (RelatedObject.byReference idref relationship).find cache = .error (.unresolvedReference idref)
  /-- What a reference resolves to has its identifier. -/
  found : ∀ idref relationship found,
    (RelatedObject.byReference idref relationship).find cache = .ok found →
      found.entity.identifier? schema = some idref
  /-- The latest entity of its identifier is found by reference as it is found inline. -/
  latest : ∀ e identifier, Entity.latest? schema entities identifier = some e → ∀ relationship,
    ((RelatedObject.ofEntity schema e relationship false).bind fun r => r.find cache) =
        .ok (.cached e) ∧
      ((RelatedObject.ofEntity schema e relationship true).bind fun r => r.find cache) =
        .ok (.inline e)

/-- **Runs on a shared cache.** -/
theorem History.cache_reflects {schema : Schema} {events : List CacheEvent} {cache : Cache}
    (h : History schema events cache) : cache.Reflects schema (Cache.recent events) := by
  have find := h.find_byReference
  exact {
    keyed := h.cache_eq ▸ Cache.keyed_registerAll (fun _ _ member => absurd member List.not_mem_nil) _
    get?_eq := h.get?_eq_latest?
    size_eq := h.cache_eq ▸ Cache.size_registerAll _
    resolves := by
      intro idref relationship
      rw [find, ← Entity.latest?_isSome]
      cases Entity.latest? schema (Cache.recent events) idref <;> simp
    unresolved := by
      intro idref relationship absent
      rw [find, Entity.latest?_eq_none.2 absent]
    found := by
      intro idref relationship found resolved
      rw [find] at resolved
      cases latest : Entity.latest? schema (Cache.recent events) idref with
      | none => rw [latest] at resolved; cases resolved
      | some e =>
        rw [latest] at resolved
        cases resolved
        exact (Entity.latest?_eq_some latest).2
    latest := by
      intro e identifier latest relationship
      have identified := (Entity.latest?_eq_some latest).2
      have reference : RelatedObject.ofEntity schema e relationship false =
          .ok (.byReference identifier relationship) := by
        simp [RelatedObject.ofEntity, RelatedObject.toReference, RelatedObject.inline,
          Entity.requireIdentifier, identified]
      refine ⟨?_, rfl⟩
      rw [reference]
      show (RelatedObject.byReference identifier relationship).find cache = _
      rw [find, latest] }

namespace History

/-- A client with no hooks but the one that caches. -/
def plainClient : Client Request.bareContext.schema where
  ctx := Request.bareContext
  schema_eq := rfl
  deeds _ _ _ := []
  deeds_eq _ _ _ := rfl
  asides _ _ _ := []
  asides_eq _ _ _ := rfl

/-- The cache with the outer one of two objects of the same identifier. -/
def twinsCache : Cache := ⟨[("object--00000000-0000-4000-8000-000000000007", HooksRan.outerTwin)]⟩

theorem twins_quiet :
    (Request.ofMapping Catalog.objectKey HooksRan.twins).apply plainClient.ctx.hookless
      HooksRan.outerTwin {} = (.ok (.made HooksRan.outerTwin), HooksRan.outerTwin, {}) := rfl

theorem twins_calls :
    (Request.ofMapping Catalog.objectKey HooksRan.twins).calls plainClient.ctx {}
      (.made HooksRan.outerTwin) =
        [⟨.cacheEntity, HooksRan.innerTwin⟩, ⟨.cacheEntity, HooksRan.outerTwin⟩] := rfl

theorem twins_after :
    ((Operation.ask HooksRan.outerTwin (.ofMapping Catalog.objectKey HooksRan.twins)).after
      plainClient.ctx {}).cache = twinsCache := rfl

/-- Two objects are built and cached, then the outer one loses its related object: the cache
reflects the two as they were built. -/
theorem twins_reflected :
    twinsCache.Reflects Request.bareContext.schema [HooksRan.innerTwin, HooksRan.outerTwin] := by
  have built := @step _ _ {} .start plainClient
    (.ask HooksRan.outerTwin (.ofMapping Catalog.objectKey HooksRan.twins)) []
    (by rw [Operation.Asks, twins_quiet]; exact .refl)
  rw [Operation.log_ask twins_quiet, twins_calls, twins_after] at built
  have changed := @step _ _ { cache := twinsCache } built plainClient
    (.unset HooksRan.outerTwin "related_objects") [] rfl
  exact changed.cache_reflects

end History

end Dossier
