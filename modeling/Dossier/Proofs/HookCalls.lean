import Dossier.Proofs.Caching
import Dossier.Proofs.Failure
import Dossier.Proofs.Fitting

/-!
# The hook calls of a construction

What a construction has built can be read off its result, what was supplied and the store
that it started in: an entity that stands where a mapping was supplied, or where a default
gave one, was built from it. `Entity.builtFrom` goes through the fields again, asking the
defaults in turn, and lists these entities, each after those nested in its fields. A
construction calls the hooks of these entities in this order once all of them are built,
and no others (`Entity.ofMapping_hooks`). An entity that is passed in already built is none of
them, and neither is one that a deferred default gives already built: if it was built just then,
that was another construction, with hook calls of its own, which are part of what the default has
done to the store.
-/

namespace Dossier

namespace EntityType

/-- Goes on to the field of a name: what it is offered, the fields behind it, and the store. The
fields before it were left unset, so their defaults were asked and had nothing to give. -/
def reach (ctx : Context) (t : EntityType) (supplied assigned : Mapping) (name : String) :
    List Field → Store → Option Value × List Field × Store
  | [], store => (none, [], store)
  | f :: fields, store =>
    let (offered?, store) := f.offer ctx t assigned (supplied.get? f.name) store
    if f.name = name then (offered?, fields, store)
    else t.reach ctx supplied assigned name fields store

/-- The store after fields that were all left unset. -/
def passOver (ctx : Context) (t : EntityType) (supplied assigned : Mapping) (fields : List Field)
    (store : Store) : Store :=
  fields.foldl (fun store f => (f.offer ctx t assigned (supplied.get? f.name) store).2) store

end EntityType

mutual

/-- The entities built for a value that is set from a source, and the store after that. What is
an entity in the source was built before. -/
def Value.builtFrom (ctx : Context) : Value → (source : Value) → Store → List Entity × Store
  | .entity e, .mapping supplied, store => Entity.builtFrom ctx e supplied store
  | .related r, .mapping record, store => RelatedObject.builtFrom ctx r record store
  | .list items, source, store => itemsBuiltFrom ctx items (Field.itemsOf source) store
  | _, _, store => ([], store)
termination_by structural value => value

def itemsBuiltFrom (ctx : Context) :
    List Value → (sources : List Value) → Store → List Entity × Store
  | item :: items, source :: sources, store =>
    let (first, store) := Value.builtFrom ctx item source store
    let (later, store) := itemsBuiltFrom ctx items sources store
    (first ++ later, store)
  | _, _, store => ([], store)
termination_by structural items => items

/-- The entities built for the values of fields of a type, of which some are left, and the store
after those. -/
def entriesBuiltFrom (ctx : Context) (t : EntityType) (supplied : Mapping) :
    List (String × Value) → (assigned : Mapping) → List Field → Store → List Entity × Store
  | [], assigned, fields, store => ([], t.passOver ctx supplied assigned fields store)
  | (name, value) :: entries, assigned, fields, store =>
    let (offered?, fields, store) := t.reach ctx supplied assigned name fields store
    -- what is set was offered something, so the empty list stands for nothing here
    let (first, store) := Value.builtFrom ctx value (offered?.getD (.list [])) store
    let (later, store) :=
      entriesBuiltFrom ctx t supplied entries (assigned ++ [(name, value)]) fields store
    (first ++ later, store)
termination_by structural entries => entries

/-- The entities built for an entity that is built from a mapping, itself last, and the store after
that, with no hooks run. -/
def Entity.builtFrom (ctx : Context) :
    Entity → (supplied : Mapping) → Store → List Entity × Store
  | ⟨typeKey, values, extras⟩, supplied, store =>
    let t := ctx.typeOf typeKey
    let (nested, store) := entriesBuiltFrom ctx t supplied values [] t.fields store
    (nested ++ [⟨typeKey, values, extras⟩], store)
termination_by structural e => e

def Holding.builtFrom (ctx : Context) :
    Holding → (record : Mapping) → Store → List Entity × Store
  | .inline e, record, store => Entity.builtFrom ctx e (RelatedObject.payloadOf record) store
  | .byReference _, _, store => ([], store)
termination_by structural holding => holding

def RelatedObject.builtFrom (ctx : Context) :
    RelatedObject → (record : Mapping) → Store → List Entity × Store
  | ⟨holding, _⟩, record, store => Holding.builtFrom ctx holding record store
termination_by structural r => r

end

theorem Entity.builtFrom_eq (ctx : Context) (e : Entity) (supplied : Mapping) (store : Store) :
    e.builtFrom ctx supplied store =
      let t := e.type ctx.schema
      let (nested, store) := entriesBuiltFrom ctx t supplied e.values [] t.fields store
      (nested ++ [e], store) := by
  cases e
  rfl

mutual

/-- Nothing is built from a source without mappings. -/
theorem Value.builtFrom_flat (ctx : Context) : ∀ (value : Value) {source : Value} (store : Store),
    source.depth = 0 → value.builtFrom ctx source store = ([], store)
  | .list items, source, store, flat => by
    rw [Value.builtFrom]
    refine itemsBuiltFrom_flat ctx items store ?_
    cases source with
    | list sources => exact flat
    | _ => exact (Nat.max_zero _).trans flat
  | .entity e, source, store, flat => by
    cases source with
    | mapping entries => exact absurd flat (Nat.pos_iff_ne_zero.1 (Value.one_le_mappingDepth entries))
    | _ => rfl
  | .related r, source, store, flat => by
    cases source with
    | mapping entries => exact absurd flat (Nat.pos_iff_ne_zero.1 (Value.one_le_mappingDepth entries))
    | _ => rfl
  | .bool _, _, _, _ | .integer _, _, _, _ | .number _, _, _, _ | .string _, _, _, _
  | .timestamp _, _, _, _ | .mapping _, _, _, _ => rfl

theorem itemsBuiltFrom_flat (ctx : Context) : ∀ (items : List Value) {sources : List Value}
    (store : Store), Value.itemsDepth sources = 0 →
      itemsBuiltFrom ctx items sources store = ([], store)
  | [], _, _, _ => rfl
  | _ :: _, [], _, _ => rfl
  | item :: items, source :: sources, store, flat => by
    obtain ⟨head, later⟩ := Nat.max_eq_zero_iff.1 flat
    rw [itemsBuiltFrom, Value.builtFrom_flat ctx item store head]
    dsimp only
    rw [itemsBuiltFrom_flat ctx items store later]
    rfl

end

/-- A field that was left unset is passed on the way to the others. -/
theorem entriesBuiltFrom_pass {ctx : Context} {t : EntityType} {supplied assigned : Mapping}
    {f : Field} {store after : Store}
    (unset : f.offer ctx t assigned (supplied.get? f.name) store = (none, after))
    {entries : List (String × Value)} (absent : f.name ∉ Table.keys entries)
    (fields : List Field) :
    entriesBuiltFrom ctx t supplied entries assigned (f :: fields) store =
      entriesBuiltFrom ctx t supplied entries assigned fields after := by
  cases entries with
  | nil =>
    show ([], t.passOver ctx supplied assigned (f :: fields) store) =
      ([], t.passOver ctx supplied assigned fields after)
    rw [EntityType.passOver, List.foldl_cons, unset]
    rfl
  | cons entry entries =>
    have other : f.name ≠ entry.1 := fun same => absent (same ▸ List.mem_cons_self)
    rw [entriesBuiltFrom, entriesBuiltFrom, EntityType.reach, unset]
    simp only [other, if_false]

/-- A field that was set is built from what it was offered. -/
theorem entriesBuiltFrom_set {ctx : Context} {t : EntityType} {supplied assigned : Mapping}
    {f : Field} {raw : Value} {store between : Store}
    (offered : f.offer ctx t assigned (supplied.get? f.name) store = (some raw, between))
    (value : Value) (entries : List (String × Value)) (fields : List Field) :
    entriesBuiltFrom ctx t supplied ((f.name, value) :: entries) assigned (f :: fields) store =
      let (first, store) := value.builtFrom ctx raw between
      let (later, store) :=
        entriesBuiltFrom ctx t supplied entries (assigned ++ [(f.name, value)]) fields store
      (first ++ later, store) := by
  rw [entriesBuiltFrom, EntityType.reach, offered]
  simp only [if_true, Option.getD_some]

/-! ## The hook calls for what was built -/

/-- The hook calls of a complete entity: its declared fields that are set and have a hook, in the
order of declaration. -/
def Entity.ownCalls (schema : Schema) (e : Entity) : List HookCall :=
  ((e.type schema).fields.filter fun f => e.isSet f.name).flatMap fun f =>
    f.hook.toList.map (⟨·, e⟩)

/-- These are the calls that construction leaves. -/
theorem Entity.ownCalls_eq (schema : Schema) (e : Entity) :
    e.ownCalls schema = (e.type schema).hookCalls e := by
  unfold ownCalls EntityType.hookCalls
  induction (e.type schema).fields with
  | nil => rfl
  | cons f fields ih =>
    rw [List.filterMap_cons, ← ih]
    by_cases set : e.isSet f.name = true <;> cases hooked : f.hook <;> simp [set, hooked]

/-- The hook calls of some entities in turn. -/
def hookCallsOf (schema : Schema) (built : List Entity) : List HookCall :=
  built.flatMap (·.ownCalls schema)

theorem hookCallsOf_append (schema : Schema) (before after : List Entity) :
    hookCallsOf schema (before ++ after) = hookCallsOf schema before ++ hookCallsOf schema after :=
  List.flatMap_append

/-- The declared fields that the entity has set are in the order of their declaration. -/
def Entity.InOrder (schema : Schema) (e : Entity) : Prop :=
  (Table.keys e.values).Sublist ((e.type schema).fields.map (·.name))

/-- The hook calls are those for the entities built, which have their fields in order, and the store
is the one after those were built. -/
structure Accounts (schema : Schema) (replayed : List Entity × Store) (calls : List HookCall)
    (after : Store) : Prop where
  calls_eq : calls = hookCallsOf schema replayed.1
  store_eq : after = replayed.2
  inOrder : ∀ e ∈ replayed.1, e.InOrder schema

namespace Accounts

variable {schema : Schema} {first later : List Entity × Store} {calls more : List HookCall}
  {between after : Store}

theorem nil (schema : Schema) (store : Store) : Accounts schema ([], store) [] store :=
  ⟨rfl, rfl, List.forall_mem_nil _⟩

theorem append (h : Accounts schema first calls between) (next : Accounts schema later more after) :
    Accounts schema (first.1 ++ later.1, later.2) (calls ++ more) after where
  calls_eq := by rw [hookCallsOf_append, ← h.calls_eq, ← next.calls_eq]
  store_eq := next.store_eq
  inOrder e member := (List.mem_append.1 member).elim (h.inOrder e) (next.inOrder e)

end Accounts

namespace Build

variable {α β : Type}

/-- Whatever the build gives in a store has the property together with the hook calls and the store
that it leaves. -/
def Leaves (x : Build α) (store : Store) (P : α → List HookCall → Store → Prop) : Prop :=
  ∀ value calls after, x store = (.ok (value, calls), after) → P value calls after

namespace Leaves

variable {P : α → List HookCall → Store → Prop} {R : β → List HookCall → Store → Prop}
  {x : Build α} {store : Store}

theorem pure {value : α} (h : P value [] store) : Leaves (pure value) store P := by
  intro result calls after run
  rw [pure_run] at run
  obtain ⟨given, rfl⟩ := Prod.mk.inj run
  obtain ⟨rfl, rfl⟩ := Prod.mk.inj (Except.ok.inj given)
  exact h

theorem fail (e : EntityError) : Leaves (Build.fail e) store P := by
  intro result calls after run
  exact absurd (Prod.mk.inj run).1 (by simp)

theorem leave {value : α} {calls : List HookCall} (h : P value calls store) :
    Leaves (Build.leave calls >>= fun _ => Pure.pure value) store P := by
  intro result left after run
  rw [leave_run] at run
  obtain ⟨given, rfl⟩ := Prod.mk.inj run
  obtain ⟨rfl, rfl⟩ := Prod.mk.inj (Except.ok.inj given)
  exact h

theorem mono {Q : α → List HookCall → Store → Prop} (h : Leaves x store P)
    (weaker : ∀ value calls after, P value calls after → Q value calls after) : Leaves x store Q :=
  fun value calls after run => weaker value calls after (h value calls after run)

theorem bind {f : α → Build β} (first : Leaves x store P)
    (later : ∀ value calls between, P value calls between →
      Leaves (f value) between fun result more => R result (calls ++ more)) :
    Leaves (x >>= f) store R := by
  intro result calls after run
  obtain ⟨value, _, between, last, hx, hf, rfl⟩ := bind_eq_ok run
  exact later value _ between (first _ _ _ hx) _ _ _ hf

theorem map {f : α → β} (h : Leaves x store fun value calls => R (f value) calls) :
    Leaves (f <$> x) store R := by
  rw [map_eq_pure_bind]
  exact h.bind fun value calls between holds => .pure (by rwa [List.append_nil])

theorem ofExcept_bind {e : Except EntityError α} {f : α → Build β}
    (later : ∀ value, e = .ok value → Leaves (f value) store R) :
    Leaves (Build.ofExcept e >>= f) store R := by
  cases e with
  | ok value =>
    rw [Build.ofExcept, pure_bind]
    exact later value rfl
  | error e =>
    intro result calls after run
    have refused : (Build.ofExcept (.error e) >>= f) store = (.error e, store) :=
      bind_run_error rfl f
    exact absurd (Prod.mk.inj (refused.symm.trans run)).1 (by simp)

theorem within (segment : String) (h : Leaves x store P) :
    Leaves (Build.within segment x) store P := by
  intro value calls after run
  unfold Build.within at run
  rcases hx : x store with ⟨_ | _, _⟩
  · simp [hx] at run
  · rw [hx] at run
    exact h _ _ _ (hx.trans run)

end Leaves

end Build

/-- The builder calls the hooks of what it builds, each entity's after those nested in it. -/
def Builder.Accountable (ctx : Context) (build : Builder) : Prop :=
  ∀ type m store, (build type m).Leaves store fun e => Accounts ctx.schema (e.builtFrom ctx m store)

section Accounting

variable {ctx : Context} {build : Builder} {owner : EntityType} {f : Field}

theorem RelatedObject.ofRecord_accounts (h : build.Accountable ctx) (type : TypeKey)
    (record : Mapping) (shown : Presentation) (store : Store) :
    (ofRecord build type record shown).Leaves store fun r =>
      Accounts ctx.schema (r.builtFrom ctx record store) := by
  -- an inline record is built from what is left of it; a reference builds nothing
  have inlined : ∀ relationship : Option String,
      ((inline · relationship) <$> build type (payloadOf record)).Leaves store fun r =>
        Accounts ctx.schema (r.builtFrom ctx record store) :=
    fun _ => .map (h type (payloadOf record) store)
  unfold ofRecord
  refine .ofExcept_bind fun relationship _ => .ofExcept_bind fun idref? _ => ?_
  cases idref? with
  | some idref =>
    dsimp only
    split
    · exact .pure (.nil _ _)
    · rw [← map_eq_pure_bind]
      exact inlined relationship
  | none =>
    dsimp only
    split
    · exact .fail _
    · rw [← map_eq_pure_bind]
      exact inlined relationship

namespace Field

theorem coerceKind_accounts (h : build.Accountable ctx) (segment : String) (raw : Value)
    (store : Store) :
    (f.coerceKind ctx build owner segment raw).Leaves store fun value =>
      Accounts ctx.schema (value.builtFrom ctx raw store) := by
  unfold coerceKind
  cases f.kind with
  | leaf kind =>
    dsimp only
    cases coerced : kind.coerce raw with
    | ok value =>
      -- a leaf is no entity, so nothing was built for it
      have shape := LeafKind.holds_of_coerce coerced
      refine .pure ?_
      cases value <;> first | exact .nil _ _ | exact absurd shape (by cases kind <;> exact id)
    | error reason => exact .fail _
  | entity type =>
    cases raw with
    | mapping entries => exact .map (.within _ (h type entries store))
    | entity e =>
      simp only [coerceEntity]
      split
      · exact .pure (.nil _ _)
      · exact .fail _
    | _ => exact .fail _
  | polymorphic name =>
    refine .ofExcept_bind fun registry _ => ?_
    cases raw with
    | mapping entries =>
      refine .within _ (.ofExcept_bind fun type _ => ?_)
      rw [← map_eq_pure_bind]
      exact .map (h type entries store)
    | entity e =>
      dsimp only
      split
      · exact .pure (.nil _ _)
      · exact .fail _
    | _ => exact .fail _
  | related type =>
    cases raw with
    | mapping entries =>
      exact .map (.within _ (RelatedObject.ofRecord_accounts h type entries _ store))
    | related r =>
      simp only [coerceRelated]
      split
      · exact .fail _
      · split
        · exact .within _ (.fail _)
        · exact .pure (.nil _ _)
    | entity e =>
      simp only [coerceRelated]
      split
      · exact .pure (.nil _ _)
      · exact .fail _
    | _ => exact .fail _

theorem coerceSingle_accounts (h : build.Accountable ctx) (segment : String) (raw : Value)
    (store : Store) :
    (f.coerceSingle ctx build owner segment raw).Leaves store fun value =>
      Accounts ctx.schema (value.builtFrom ctx raw store) := by
  refine (coerceKind_accounts h segment raw store).bind fun value calls between accounts => ?_
  split
  · exact .pure (by rwa [List.append_nil])
  · exact .fail _

/-- By induction on the items, each built in the store that the one before it has left. -/
theorem coerceItems_accounts (h : build.Accountable ctx) (index : Nat) (items : List Value)
    (store : Store) :
    (f.coerceItems ctx build owner index items).Leaves store fun values =>
      Accounts ctx.schema (itemsBuiltFrom ctx values items store) := by
  induction items generalizing index store with
  | nil => exact .pure (.nil _ _)
  | cons item items ih =>
    refine (coerceSingle_accounts h _ item store).bind fun value calls between first => ?_
    refine (ih (index + 1) between).bind fun values more after later => .pure ?_
    rw [List.append_nil]
    obtain rfl := first.store_eq
    exact first.append later

theorem coerce_accounts (h : build.Accountable ctx) (raw : Value) (store : Store) :
    (f.coerce ctx build owner raw).Leaves store fun value =>
      Accounts ctx.schema (value.builtFrom ctx raw store) := by
  unfold coerce
  split
  · split
    · exact .fail _
    · exact .map (coerceItems_accounts h 0 (itemsOf raw) store)
  · exact coerceSingle_accounts h f.name raw store

end Field

namespace EntityType

variable {builders : Builders} {t : EntityType}

/-- By induction on the fields. A field that was left unset is passed over, and one that was set is
built from what it was offered; none was rejected. -/
theorem trials_accounts (supplied : builders.supplied.Accountable ctx)
    (defaulted : builders.defaulted.Accountable ctx) (m : Mapping) {fields : List Field}
    (names : (fields.map (·.name)).Nodup) (assigned : Mapping) (store : Store)
    (quiet : (t.trials ctx builders m fields assigned store).errors = []) :
    let trials := t.trials ctx builders m fields assigned store
    Accounts ctx.schema (entriesBuiltFrom ctx t m trials.values assigned fields store)
      trials.calls trials.store := by
  induction fields generalizing assigned store with
  | nil => exact .nil _ _
  | cons f fields ih =>
    obtain ⟨apart, distinct⟩ := List.nodup_cons.1 names
    rcases run : f.fill ctx builders t assigned (m.get? f.name) store with
      ⟨error | ⟨_ | value, calls⟩, after⟩
    · simp [trials, run, Trials.errors] at quiet
    · obtain ⟨offered, rfl⟩ := Field.offer_of_unset run
      simp only [trials, run] at quiet ⊢
      -- names are distinct, so no later field stands in for this one
      have absent : f.name ∉ Table.keys (t.trials ctx builders m fields assigned after).values := by
        intro there
        have among := Trials.keys_values_subset _ there
        rw [trials_names] at among
        exact apart among
      have passed := entriesBuiltFrom_pass offered absent fields
      exact passed ▸ ih distinct assigned after quiet
    · obtain ⟨raw, between, offered, coerced⟩ := Field.offer_of_set run
      simp only [trials, run] at quiet ⊢
      -- what was supplied and what a default gave are built by different builders
      have accountable : (builders.for (m.get? f.name)).Accountable ctx := by
        cases m.get? f.name with
        | some raw => exact supplied
        | none => exact defaulted
      have first := Field.coerce_accounts accountable raw between value calls after coerced
      have later := ih distinct (assigned ++ [(f.name, value)]) after quiet
      have set := entriesBuiltFrom_set offered value
        (t.trials ctx builders m fields (assigned ++ [(f.name, value)]) after).values fields
      obtain rfl := first.store_eq
      exact set ▸ first.append later

theorem keys_values_sublist (list : List Trial) :
    (Table.keys (list.filterMap Trial.value?)).Sublist (list.map (·.field.name)) := by
  induction list with
  | nil => exact .slnil
  | cons trial list ih =>
    rcases trial with ⟨f, error | (_ | value)⟩
    · exact ih.cons f.name
    · exact ih.cons f.name
    · exact ih.cons_cons f.name

theorem complete_inOrder (type : TypeKey) (m : Mapping) (store : Store) :
    (complete ctx type m
      ((ctx.typeOf type).trials ctx builders m (ctx.typeOf type).fields [] store)).InOrder
        ctx.schema := by
  have sublist := keys_values_sublist
    ((ctx.typeOf type).trials ctx builders m (ctx.typeOf type).fields [] store).list
  rw [trials_names] at sublist
  exact sublist

/-- Its own hook calls come after those of what is nested in it. -/
theorem construct_accounts (supplied : builders.supplied.Accountable ctx)
    (defaulted : builders.defaulted.Accountable ctx) (type : TypeKey) (m : Mapping)
    (store : Store) :
    (construct ctx builders type m).Leaves store fun e =>
      Accounts ctx.schema (e.builtFrom ctx m store) := by
  intro e calls after run
  rw [construct_run] at run
  dsimp only at run
  split at run
  · exact absurd (Prod.mk.inj run).1 (by simp)
  · next told =>
    have quiet := EntityError.combine_eq_none told
    simp only [complaints, List.append_eq_nil_iff] at quiet
    obtain ⟨given, rfl⟩ := Prod.mk.inj run
    obtain ⟨rfl, rfl⟩ := Prod.mk.inj (Except.ok.inj given)
    -- without complaints every field was accepted
    have nested := trials_accounts supplied defaulted m (ctx.typeOf type).distinct [] store
      quiet.1.1.2
    rw [Entity.builtFrom_eq]
    refine nested.append (?_ : Accounts ctx.schema ([_], _) _ _)
    refine ⟨?_, nested.store_eq, List.forall_mem_singleton.2 (complete_inOrder type m store)⟩
    rw [hookCallsOf, List.flatMap_singleton, Entity.ownCalls_eq]
    rfl

end EntityType

theorem Context.build_accounts (ctx : Context) : ctx.build.Accountable ctx :=
  fun type m => Context.build_induction
    (P := fun _ m x => ∀ store, x.Leaves store fun e =>
      Accounts ctx.schema (e.builtFrom ctx m store))
    (fun _ _ _ => .fail _)
    (fun _ supplied defaulted => EntityType.construct_accounts supplied defaulted) type m

end Accounting

/-! ## What the hooks do -/

/-- Nothing but caching is asked for by the hook calls, and the context does cache. -/
def Context.OnlyCaches (ctx : Context) (calls : List HookCall) : Prop :=
  ctx.config.cacheEntities = true ∧ ∀ call ∈ calls, call.hook = .cacheEntity

/-- Hooks that only cache put what they are called with into the cache, in turn. -/
theorem Context.OnlyCaches.cache_runHooks {ctx : Context} {calls : List HookCall}
    (h : ctx.OnlyCaches calls) (store : Store) :
    (ctx.runHooks calls store).cache =
      store.cache.registerAll ctx.schema (calls.map (·.entity)) := by
  obtain ⟨caches, caching⟩ := h
  induction calls generalizing store with
  | nil => rfl
  | cons call calls ih =>
    have first : (ctx.runHook call.hook call.entity store).cache =
        store.cache.register ctx.schema call.entity := by
      rw [caching call List.mem_cons_self, runHook, cacheEntity, if_pos caches]
    have later := ih (ctx.runHook call.hook call.entity store)
      (fun other member => caching other (List.mem_cons_of_mem _ member))
    rw [first] at later
    exact later

namespace Entity

variable {schema : Schema} {e : Entity}

theorem entity_of_mem_ownCalls {call : HookCall} (h : call ∈ e.ownCalls schema) :
    call.entity = e := by
  obtain ⟨f, -, among⟩ := List.mem_flatMap.1 h
  obtain ⟨hook, -, rfl⟩ := List.mem_map.1 among
  rfl

theorem mem_ownCalls {f : Field} (declared : f ∈ (e.type schema).fields) {hook : Hook}
    (has : f.hook = some hook) (set : e.isSet f.name = true) : ⟨hook, e⟩ ∈ e.ownCalls schema :=
  List.mem_flatMap.2 ⟨f, List.mem_filter.2 ⟨declared, set⟩, by simp [has]⟩

/-- The last entity of a list whose last entities are all the same. -/
theorem latest?_append_same {identifier : String}
    (identified : e.identifier? schema = some identifier)
    (before : List Entity) {last : List Entity} (some : e ∈ last)
    (same : ∀ other ∈ last, other = e) :
    latest? schema (before ++ last) identifier = Option.some e := by
  rw [latest?_append]
  obtain ⟨found, latest⟩ := Option.isSome_iff_exists.1 (latest?_isSome.2 ⟨e, some, identified⟩)
  rw [latest, same found (latest?_eq_some latest).1]
  rfl

end Entity

/-- What the hooks of a construction have done to a store, by the entities that it has built, the
store once they were, and the outermost of them, if there is any. What a deferred default has done
when it was asked, building entities on its own included, is done by then. -/
structure HooksRan (ctx : Context) (built : List Entity × Store) (outermost : Option Entity)
    (before after : Store) : Prop where
  /-- Before the hooks there was drawing, and deferred defaults were asked. -/
  drafted : ∃ asks, ctx.Drafts before asks built.2
  /-- The cache is then what it was, unless there are deferred defaults that change it. -/
  spared : ctx.SparesCache → built.2.cache = before.cache
  /-- The hooks of what was built were called in turn. -/
  ran : after = ctx.runHooks (hookCallsOf ctx.schema built.1) built.2
  inOrder : ∀ e ∈ built.1, e.InOrder ctx.schema
  /-- What they were called with was put into the cache in turn. -/
  cached : ctx.OnlyCaches (hookCallsOf ctx.schema built.1) →
    after.cache = built.2.cache.registerAll ctx.schema
      ((hookCallsOf ctx.schema built.1).map (·.entity))
  /-- The outermost entity is held under its identifier, if that is in a field that caches. -/
  outermost : ctx.OnlyCaches (hookCallsOf ctx.schema built.1) →
    ∀ e ∈ outermost, ∀ f ∈ (e.type ctx.schema).fields, f.hook = some .cacheEntity →
      (e.type ctx.schema).idField = some f.name →
      ∀ identifier ∈ e.identifier? ctx.schema, after.cache.get? identifier = some e
  /-- What is held under an identifier that none of them has is what was held before. -/
  kept : ctx.OnlyCaches (hookCallsOf ctx.schema built.1) →
    ∀ identifier, (∀ call ∈ hookCallsOf ctx.schema built.1,
        call.entity.identifier? ctx.schema ≠ some identifier) →
      after.cache.get? identifier = built.2.cache.get? identifier

theorem HooksRan.of_run {ctx : Context} {built : List Entity × Store} {outermost : Option Entity}
    {before : Store} (drafted : ∃ asks, ctx.Drafts before asks built.2)
    (inOrder : ∀ e ∈ built.1, e.InOrder ctx.schema)
    (last : ∀ e ∈ outermost, ∃ nested, built.1 = nested ++ [e]) :
    HooksRan ctx built outermost before
      (ctx.runHooks (hookCallsOf ctx.schema built.1) built.2) where
  drafted := drafted
  spared := by
    intro spares
    obtain ⟨asks, drafts⟩ := drafted
    exact drafts.cache_eq fun ask member => spares ask (drafts.declared ask member)
  ran := rfl
  inOrder := inOrder
  cached caches := caches.cache_runHooks _
  outermost := by
    intro caches e same f declared hooked idField identifier identified
    obtain ⟨nested, split⟩ := last e same
    -- its identifier is read from the field, so the field is set and its hook called
    have set : e.isSet f.name = true := by
      unfold Entity.identifier? at identified
      rw [idField] at identified
      have text : (e.get? f.name).bind (·.string?) = some identifier := identified
      obtain ⟨value, held, -⟩ := Option.bind_eq_some_iff.1 text
      rw [Entity.isSet, held]
      rfl
    have own : hookCallsOf ctx.schema [e] = e.ownCalls ctx.schema := List.flatMap_singleton ..
    -- its own calls come last, and all of them are with it
    rw [caches.cache_runHooks, Cache.get?_registerAll, split, hookCallsOf_append, List.map_append,
      own, Entity.latest?_append_same identified]
    · rfl
    · exact List.mem_map.2 ⟨_, Entity.mem_ownCalls declared hooked set, rfl⟩
    · intro other member
      obtain ⟨call, called, rfl⟩ := List.mem_map.1 member
      exact Entity.entity_of_mem_ownCalls called
  kept := by
    intro caches identifier absent
    have none : Entity.latest? ctx.schema
        ((hookCallsOf ctx.schema built.1).map (·.entity)) identifier = none := by
      refine Entity.latest?_eq_none.2 fun e member => ?_
      obtain ⟨call, called, rfl⟩ := List.mem_map.1 member
      exact absent call called
    rw [caches.cache_runHooks, Cache.get?_registerAll, none]
    rfl

/-- A finished build that accounts for its hook calls has run them. -/
theorem HooksRan.of_finish {α : Type} {ctx : Context} {x : Build α} {store after : Store} {value : α}
    {built : List Entity × Store} {outermost : Option Entity} (drafts : x.Drafts ctx)
    (run : (x.finish ctx).run.run store = (.ok value, after))
    (accounts : ∀ calls left, x store = (.ok (value, calls), left) →
      Accounts ctx.schema built calls left)
    (last : ∀ e ∈ outermost, ∃ nested, built.1 = nested ++ [e]) :
    HooksRan ctx built outermost store after := by
  obtain ⟨asks, drafted⟩ := drafts store
  rcases outcome : x store with ⟨e | ⟨given, calls⟩, left⟩ <;> rw [outcome] at drafted
  · rw [Build.finish_run_error outcome] at run
    exact absurd (Prod.mk.inj run).1 (by simp)
  · rw [Build.finish_run_ok outcome] at run
    obtain ⟨same, rfl⟩ := Prod.mk.inj run
    obtain rfl := Except.ok.inj same
    obtain ⟨rfl, rfl, inOrder⟩ := accounts calls left outcome
    exact .of_run ⟨asks, drafted⟩ inOrder last

theorem HooksRan.of_mapping {ctx : Context} {type : TypeKey} {supplied : Mapping}
    {store after : Store} {e : Entity}
    (run : (Entity.ofMapping ctx type supplied).run.run store = (.ok e, after)) :
    HooksRan ctx (e.builtFrom ctx supplied store) (some e) store after := by
  refine .of_finish (ctx.build_drafts type supplied) run (ctx.build_accounts type supplied store e)
    fun outermost same => ?_
  obtain rfl := Option.some.inj same
  rw [Entity.builtFrom_eq]
  exact ⟨_, rfl⟩

theorem HooksRan.of_record {ctx : Context} {type : TypeKey} {record : Mapping}
    {shown : Presentation} {store after : Store} {r : RelatedObject}
    (run : (RelatedObject.ofMappingAs ctx type record shown).run.run store = (.ok r, after)) :
    HooksRan ctx (r.builtFrom ctx record store) r.embedded? store after := by
  refine .of_finish (RelatedObject.ofRecord_drafts ctx type record shown) run
    (RelatedObject.ofRecord_accounts ctx.build_accounts type record shown store r)
    fun outermost same => ?_
  obtain ⟨holding, relationship⟩ := r
  cases holding with
  | inline e =>
    obtain rfl := Option.some.inj same
    rw [RelatedObject.builtFrom, Holding.builtFrom, Entity.builtFrom_eq]
    exact ⟨_, rfl⟩
  | byReference idref => exact absurd same (by simp [RelatedObject.embedded?])

namespace HooksRan

/-- An object with an inline object of its own identifier, which is built first. -/
def twins : Mapping :=
  [("id", .string "object--00000000-0000-4000-8000-000000000007"),
    ("related_objects", .list [.mapping [
      ("id", .string "object--00000000-0000-4000-8000-000000000007"),
      ("state", .string "seen")]])]

def innerTwin : Entity where
  typeKey := Catalog.objectKey
  values :=
    [("id", .string "object--00000000-0000-4000-8000-000000000007"), ("state", .string "seen")]
  extras := []

def outerTwin : Entity where
  typeKey := Catalog.objectKey
  values :=
    [("id", .string "object--00000000-0000-4000-8000-000000000007"),
      ("related_objects", .list [.related (.inline innerTwin none)])]
  extras := []

end HooksRan

end Dossier
