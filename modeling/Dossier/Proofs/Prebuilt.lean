import Dossier.Proofs.Reconstruction
import Dossier.Proofs.Refitting

/-!
# Values that were built before

A value for a field may be supplied as a mapping, which is built along with the entity, or as
what that mapping was built to before. A build that neither draws nor asks a deferred default
comes to one and the same in any store (`Build.Steady`), and all of building is such: so it comes
to the same inside another entity as on its own. `Entity.ofMapping_prebuilt` says that it makes no
difference to the outer entity which of the two was supplied. Only the hooks differ: those of
what was built before ran when it was.
-/

namespace Dossier

namespace Build

variable {α β : Type} {x y : Build α}

/-- The two builds come to the same in any store, except for the hook calls that they leave. -/
def Matches (x y : Build α) : Prop := ∀ store, x.bare store = y.bare store

namespace Matches

theorem refl (x : Build α) : Matches x x := fun _ => rfl

theorem of_gives {H : Hook → Prop} {value : α} (first : x.Gives H value)
    (other : y.Gives H value) : Matches x y := by
  intro store
  obtain ⟨calls, run, -⟩ := first store
  obtain ⟨more, same, -⟩ := other store
  rw [bare, bare, run, same]
  rfl

theorem bind {f g : α → Build β} (h : Matches x y) (later : ∀ value, Matches (f value) (g value)) :
    Matches (x >>= f) (y >>= g) := by
  intro store
  rw [bare_bind, bare_bind, h store]
  rcases y.bare store with ⟨e | value, between⟩
  · rfl
  · exact later value between

theorem map (h : Matches x y) (f : α → β) : Matches (f <$> x) (f <$> y) := by
  rw [map_eq_pure_bind, map_eq_pure_bind]
  exact h.bind fun _ => .refl _

end Matches

end Build

/-! ## Builds that consult nothing -/

/-- How often the sources have been asked, taken together. -/
def Store.asked (store : Store) : Nat := store.supply.drawn + store.supply.readings

/-- The context with deferred defaults that give nothing, and that show in the supply. -/
def Context.counting (ctx : Context) : Context :=
  { ctx with
    defaults := fun _ _ store =>
      (none, { store with supply.drawn := store.supply.drawn + 1 }) }

/-- The second build is the first with every question counted: each of its runs counts one, unless
both come to one and the same in any store and leave that as it is. -/
def Build.Steady {α : Type} (x counted : Build α) : Prop :=
  ∀ store, store.asked < (counted.bare store).2.asked ∨
    ∃ outcome, ∀ other, x.bare other = (outcome, other) ∧ counted.bare other = (outcome, other)

namespace Build.Steady

variable {α β : Type} {x y : Build α}

theorem pure (value : α) : Steady (pure value) (pure value) :=
  fun _ => .inr ⟨_, fun _ => ⟨rfl, rfl⟩⟩

/-- No run goes back behind what was counted before. -/
theorem le (h : Steady x y) (store : Store) : store.asked ≤ (y.bare store).2.asked := by
  rcases h store with counted | ⟨outcome, same⟩
  · exact Nat.le_of_lt counted
  · exact Nat.le_of_eq (by rw [(same store).2])

theorem bind {f g : α → Build β} (first : Steady x y) (later : ∀ value, Steady (f value) (g value)) :
    Steady (x >>= f) (y >>= g) := by
  intro store
  simp only [bare_bind]
  rcases first store with counted | ⟨outcome, same⟩
  · -- what comes after the question does not take it back
    left
    generalize y.bare store = run at counted ⊢
    rcases run with ⟨e | value, between⟩
    · exact counted
    · exact Nat.lt_of_lt_of_le counted ((later value).le between)
  · simp only [same]
    cases outcome with
    | error e => exact .inr ⟨.error e, fun _ => ⟨rfl, rfl⟩⟩
    | ok value => exact later value store

theorem congruence : Congruence Steady where
  pure := pure
  fail _ _ := .inr ⟨_, fun _ => ⟨rfl, rfl⟩⟩
  leave _ _ := .inr ⟨_, fun _ => ⟨rfl, rfl⟩⟩
  drawId ids typeName store := by
    left
    show store.supply.drawn + store.supply.readings <
      store.supply.drawn + 1 + store.supply.readings
    omega
  readClock clock store := by
    left
    show store.supply.drawn + store.supply.readings <
      store.supply.drawn + (store.supply.readings + 1)
    omega
  bind := bind
  attempt h store := by
    simp only [bare_attempt]
    refine (h store).imp_right ?_
    rintro ⟨outcome, same⟩
    exact ⟨.ok outcome, fun other => by simp only [same, and_self]⟩
  within segment h store := by
    simp only [bare_within]
    refine (h store).imp_right ?_
    rintro ⟨outcome, same⟩
    exact ⟨outcome.mapError (·.within segment), fun other => by simp only [same, and_self]⟩

/-- What one run gave while nothing was counted, the build gives for nothing. -/
theorem gives (h : Steady x y) {store : Store} {value : α}
    (run : (x.bare store).1 = .ok value) (uncounted : (y.bare store).2 = store) :
    x.Gives (fun _ => True) value := by
  rcases h store with counted | ⟨outcome, same⟩
  · rw [uncounted] at counted
    exact absurd counted (Nat.lt_irrefl _)
  · obtain rfl : outcome = .ok value := by rwa [(same store).1] at run
    intro other
    have given := (same other).1
    unfold bare at given
    rcases found : x other with ⟨e | ⟨result, calls⟩, after⟩ <;> rw [found] at given <;>
      obtain ⟨outcome, rfl⟩ := Prod.mk.inj given
    · exact absurd outcome (by simp [Except.map])
    · obtain rfl : result = value := Except.ok.inj outcome
      exact ⟨calls, rfl, fun _ _ => trivial⟩

end Build.Steady

/-- Building asks nothing that is not counted: drawing counts itself, and the deferred defaults are
replaced by ones that count. -/
theorem Context.build_steady (ctx : Context) :
    ctx.build.Related Build.Steady ctx.counting.build := by
  refine build_refitted ctx.hooks ctx.config.cacheEntities _ Build.Steady.congruence ?_
  intro key f declared name deferred assigned store
  left
  show store.supply.drawn + store.supply.readings <
    store.supply.drawn + 1 + store.supply.readings
  omega

/-! ## Mappings that build alone -/

/-- What a mapping supplied to a field comes to when it is built on its own, as the type that the
field resolves it to or as a record of a related object, if nothing is drawn for that and no deferred
default is asked: whatever those would do to the store, it stays as it is. -/
inductive Field.BuildsAlone (ctx : Context) (f : Field) (m : Mapping) : Value → Prop where
  | entity {type : TypeKey} {e : Entity} {store : Store}
      (unrelated : ∀ other, f.kind ≠ .related other)
      (resolved : f.builtType? ctx (.mapping m) = .ok (some type))
      (built : ((Entity.ofMapping ctx type m).run.run store).1 = .ok e)
      (undrawn : ∀ defaults, ({ ctx with defaults }.build type m store).2 = store) :
      BuildsAlone ctx f m (.entity e)
  | related {type : TypeKey} {r : RelatedObject} {store : Store}
      (kind : f.kind = .related type)
      (built : ((RelatedObject.ofMapping ctx type m).run.run store).1 = .ok r)
      (undrawn : ∀ defaults, (RelatedObject.ofRecord { ctx with defaults }.build type m
        (RelatedObject.presentationOf m) store).2 = store) : BuildsAlone ctx f m (.related r)

namespace Field

variable {ctx : Context} {owner : EntityType} {f : Field} {m : Mapping} {value : Value}

theorem builtType?_polymorphic {name : String} {type : TypeKey} (kind : f.kind = .polymorphic name) :
    f.builtType? ctx (.mapping m) = .ok (some type) ↔
      ∃ registry, ctx.registry name = .ok registry ∧ registry.pick m = .ok type := by
  unfold builtType?
  rw [kind]
  rcases known : ctx.registry name with e | registry
  · simp [known, bind, Except.bind]
  · cases picked : registry.pick m <;> simp [known, picked, bind, Except.bind]

/-- In a registry that is known, picking the type is part of building. -/
theorem coerceKind_polymorphic {name : String} {registry : Registry}
    (kind : f.kind = .polymorphic name) (known : ctx.registry name = .ok registry)
    (owner : EntityType) (segment : String) :
    f.coerceKind ctx ctx.build owner segment (.mapping m) =
      Build.within segment do
        let type ← Build.ofExcept (registry.pick m)
        return .entity (← ctx.build type m) := by
  unfold coerceKind
  rw [kind]
  dsimp only [coercePolymorphic]
  rw [known, Build.ofExcept, pure_bind]

/-- A mapping that a field resolves to a type is built as one of it. -/
theorem coerceKind_resolved (unrelated : ∀ other, f.kind ≠ .related other) {type : TypeKey}
    (resolved : f.builtType? ctx (.mapping m) = .ok (some type)) (owner : EntityType)
    (segment : String) :
    f.coerceKind ctx ctx.build owner segment (.mapping m) =
      .entity <$> (ctx.build type m).within segment := by
  cases kind : f.kind with
  | leaf leaf =>
    rw [builtType?, kind] at resolved
    cases resolved
  | entity other =>
    rw [builtType?, kind] at resolved
    cases resolved
    rw [coerceKind, kind]
    rfl
  | polymorphic name =>
    obtain ⟨registry, known, picked⟩ := (builtType?_polymorphic kind).1 resolved
    rw [coerceKind_polymorphic kind known, picked, Build.ofExcept, pure_bind, ← Build.within_map,
      map_eq_pure_bind]
  | related other => exact absurd kind (unrelated other)

/-- A mapping for a related object is read as a record. -/
theorem coerceKind_record {type : TypeKey} (kind : f.kind = .related type) (owner : EntityType)
    (segment : String) :
    f.coerceKind ctx ctx.build owner segment (.mapping m) =
      .related <$> (RelatedObject.ofRecord ctx.build type m
        (RelatedObject.presentationOf m)).within segment := by
  rw [coerceKind, kind]
  rfl

/-- The field builds the mapping to what it comes to alone, for nothing. -/
theorem BuildsAlone.gives (alone : f.BuildsAlone ctx m value) (owner : EntityType)
    (segment : String) :
    (f.coerceKind ctx ctx.build owner segment (.mapping m)).Gives (fun _ => True) value := by
  cases alone with
  | @entity type e store unrelated resolved built undrawn =>
    have given : (ctx.build type m).Gives (fun _ => True) e := by
      refine (ctx.build_steady type m).gives ?_ (undrawn ctx.counting.defaults)
      rw [← Build.finish_outcome ctx]
      exact built
    rw [coerceKind_resolved unrelated resolved]
    exact (given.within segment).map _
  | @related type r store kind built undrawn =>
    have given : (RelatedObject.ofRecord ctx.build type m
        (RelatedObject.presentationOf m)).Gives (fun _ => True) r := by
      have steady := RelatedObject.ofRecord_related Build.Steady.congruence ctx.build_steady type m
        (RelatedObject.presentationOf m)
      refine steady.gives ?_ (undrawn ctx.counting.defaults)
      rw [← Build.finish_outcome ctx]
      exact built
    rw [coerceKind_record kind]
    exact (given.within segment).map _

/-- What a mapping builds to alone is a value of the field's kind. -/
theorem BuildsAlone.holds (alone : f.BuildsAlone ctx m value) : f.kind.Holds ctx value := by
  obtain ⟨calls, run, -⟩ := alone.gives (ctx.typeOf ⟨f.name⟩) f.name {}
  exact (coerceKind_ensures (Value.carries_each fun _ => True).conveys (ctx.buildNesting_makes _)
    (f.asks_any ctx) f.name (fun _ _ => trivial) _ _ _ _ run).1

/-- A single value may be supplied in either form. -/
theorem coerceSingle_matches (alone : f.BuildsAlone ctx m value) (segment : String) :
    (f.coerceSingle ctx ctx.build owner segment (.mapping m)).Matches
      (f.coerceSingle ctx ctx.build owner segment value) := by
  refine Build.Matches.bind ?_ fun _ => .refl _
  rw [coerceKind_of_holds alone.holds]
  exact .of_gives (alone.gives owner segment) (.pure value)

/-- One item of a list may be supplied in either form, whatever the others are. -/
theorem coerceItems_matches (alone : f.BuildsAlone ctx m value) (before after : List Value)
    (index : Nat) :
    (f.coerceItems ctx ctx.build owner index (before ++ .mapping m :: after)).Matches
      (f.coerceItems ctx ctx.build owner index (before ++ value :: after)) := by
  induction before generalizing index with
  | nil => exact (coerceSingle_matches alone _).bind fun _ => .refl _
  | cons item before ih =>
    exact (Build.Matches.refl _).bind fun _ => (ih (index + 1)).bind fun _ => .refl _

end Field

/-- Where a value stands in what is supplied to a field: it is all of that, or an item of a list. -/
inductive Position where
  | whole
  | item (before after : List Value)

/-- What is supplied to the field, with a value in the position. -/
def Position.holding : Position → Value → Value
  | whole, value => value
  | item before after, value => .list (before ++ value :: after)

namespace Field

variable {ctx : Context} {f : Field} {m : Mapping} {value : Value}

/-- A list is refused as a single value, whatever its items are. -/
theorem coerceKind_list (build : Builder) (owner : EntityType) (f : Field) (segment : String)
    (items others : List Value) :
    f.coerceKind ctx build owner segment (.list items) =
      f.coerceKind ctx build owner segment (.list others) := by
  unfold coerceKind
  cases f.kind with
  | leaf kind => cases kind <;> rfl
  | _ => rfl

theorem coerce_matches (alone : f.BuildsAlone ctx m value) (owner : EntityType)
    (position : Position) :
    (f.coerce ctx ctx.build owner (position.holding (.mapping m))).Matches
      (f.coerce ctx ctx.build owner (position.holding value)) := by
  -- either way the items are some before the value, the value, and some after it
  obtain ⟨before, after, items, same⟩ : ∃ before after,
      itemsOf (position.holding (.mapping m)) = before ++ .mapping m :: after ∧
        itemsOf (position.holding value) = before ++ value :: after := by
    cases position with
    | whole => exact ⟨[], [], rfl, by cases alone <;> rfl⟩
    | item before after => exact ⟨before, after, rfl, rfl⟩
  have nonempty : ∀ x, (before ++ x :: after).isEmpty = false := by simp
  unfold coerce
  cases f.isMultiple with
  | true =>
    simp only [items, same, nonempty, if_true, Bool.false_and, Bool.false_eq_true, if_false]
    exact .map (coerceItems_matches alone before after 0) _
  | false =>
    simp only [Bool.false_eq_true, if_false]
    cases position with
    | whole => exact coerceSingle_matches alone f.name
    | item before after =>
      rw [Position.holding, Position.holding, coerceSingle, coerceSingle,
        coerceKind_list _ _ _ _ _ (before ++ value :: after)]
      exact .refl _

end Field

namespace EntityType

variable {ctx : Context} {builders : Builders} {t : EntityType} {m other : Mapping}

/-- Fields that are filled alike come to the same trials. -/
theorem trials_matches {fields : List Field} (fill : ∀ g ∈ fields, ∀ assigned,
      (g.fill ctx builders t assigned (m.get? g.name)).Matches
        (g.fill ctx builders t assigned (other.get? g.name))) (assigned : Mapping)
    (store : Store) :
    (t.trials ctx builders m fields assigned store).list =
        (t.trials ctx builders other fields assigned store).list ∧
      (t.trials ctx builders m fields assigned store).store =
        (t.trials ctx builders other fields assigned store).store := by
  induction fields generalizing assigned store with
  | nil => exact ⟨rfl, rfl⟩
  | cons g fields ih =>
    have same := fill g List.mem_cons_self assigned store
    obtain ⟨list, rest⟩ := trials_cons ctx builders t m g fields assigned store
    obtain ⟨list', rest'⟩ := trials_cons ctx builders t other g fields assigned store
    obtain ⟨later, after⟩ := ih (fun h among => fill h (List.mem_cons_of_mem _ among)) _ _
    rw [list, list', rest, rest', same]
    exact ⟨congrArg _ later, after⟩

/-- Constructions match if their fields are filled alike and what was supplied apart from that is
the same. -/
theorem construct_matches {type : TypeKey} (fill : ∀ g ∈ (ctx.typeOf type).fields, ∀ assigned,
      (g.fill ctx builders (ctx.typeOf type) assigned (m.get? g.name)).Matches
        (g.fill ctx builders (ctx.typeOf type) assigned (other.get? g.name)))
    (tagged : (ctx.typeOf type).tagErrors m = (ctx.typeOf type).tagErrors other)
    (missing : missingOf m (ctx.typeOf type).fields = missingOf other (ctx.typeOf type).fields)
    (undeclared : (ctx.typeOf type).undeclared m = (ctx.typeOf type).undeclared other) :
    (construct ctx builders type m).Matches (construct ctx builders type other) := by
  intro store
  obtain ⟨list, rest⟩ := trials_matches fill [] store
  -- the trials are the same, and so are what is wrong and what is made
  have told : (ctx.typeOf type).complaints ctx m
        ((ctx.typeOf type).trials ctx builders m (ctx.typeOf type).fields [] store) =
      (ctx.typeOf type).complaints ctx other
        ((ctx.typeOf type).trials ctx builders other (ctx.typeOf type).fields [] store) := by
    unfold complaints missingErrors unexpectedErrors Trials.errors
    rw [list, tagged, missing, undeclared]
  have made : complete ctx type m
        ((ctx.typeOf type).trials ctx builders m (ctx.typeOf type).fields [] store) =
      complete ctx type other
        ((ctx.typeOf type).trials ctx builders other (ctx.typeOf type).fields [] store) := by
    unfold complete Trials.values
    rw [list, undeclared]
  unfold Build.bare
  rw [construct_run, construct_run]
  dsimp only
  rw [told, made, rest]
  cases EntityError.combine _ <;> rfl

theorem missingOf_congr {fields : List Field}
    (h : ∀ f ∈ fields, (m.get? f.name).isNone = (other.get? f.name).isNone) :
    missingOf m fields = missingOf other fields := by
  unfold missingOf
  exact congrArg _ (List.filter_congr fun f member => by rw [h f member])

theorem tagErrors_congr
    (h : ∀ tag, t.separateTag? = some tag → m.get? tag.key = other.get? tag.key) :
    t.tagErrors m = t.tagErrors other := by
  unfold tagErrors
  cases found : t.separateTag? with
  | none => rfl
  | some tag => simp only [h tag found]

end EntityType

/-- **A value that was built before is as good as the mapping it was built from.** For a field of an
outer type that holds entities, or related objects, and a mapping for it that builds on its own to
a value without drawing or asking a deferred default: whatever else was supplied, with the mapping
in a position of that field the outer entity comes to exactly what it comes to with the value there.
Both are the same entity or both are refused for the same error, and the same is drawn. -/
theorem Entity.ofMapping_prebuilt {ctx : Context} {outer : TypeKey} {f : Field}
    (declared : f ∈ (ctx.typeOf outer).fields) {m : Mapping} {value : Value}
    (alone : f.BuildsAlone ctx m value) (others : Mapping) (position : Position) :
    let supplied := fun held => Table.insert others f.name (position.holding held)
    (ctx.build outer (supplied (.mapping m))).Matches (ctx.build outer (supplied value)) ∧
    ∀ store, ((ofMapping ctx outer (supplied (.mapping m))).run.run store).1 =
      ((ofMapping ctx outer (supplied value)).run.run store).1 := by
  intro supplied
  have same : (ctx.build outer (supplied (.mapping m))).Matches
      (ctx.build outer (supplied value)) := by
    rw [ctx.build_eq, ctx.build_eq]
    refine EntityType.construct_matches ?_ ?_ ?_ ?_
    · intro g member assigned
      simp only [supplied, Table.get?_insert]
      -- the field itself takes either the same way, and the others see no difference
      by_cases it : f.name = g.name
      · obtain rfl := EntityType.eq_of_name_eq declared member it
        simp only [if_true, Field.fill, ctx.builders_supplied]
        exact .map (f.coerce_matches alone _ position) _
      · simp only [it, if_false]
        exact .refl _
    · refine EntityType.tagErrors_congr fun tag separate => ?_
      simp only [supplied, Table.get?_insert, EntityType.ne_separateTag separate declared, if_false]
    · refine EntityType.missingOf_congr fun g _ => ?_
      simp only [supplied, Table.get?_insert]
      split <;> rfl
    · simp only [supplied, EntityType.undeclared_insert, EntityType.isCustom_of_mem declared]
      rfl
  refine ⟨same, fun store => ?_⟩
  unfold ofMapping
  rw [Build.finish_outcome, Build.finish_outcome, same]

namespace Reachable

/-- A record of an object that has its identifier and so draws none. -/
def identifiedRecord : Mapping :=
  [("id", .string "object--00000000-0000-4000-8000-000000000002"), ("state", .string "seen")]

/-- The related object that the record comes to. -/
def identifiedRelated : RelatedObject :=
  .inline { typeKey := Catalog.objectKey, values := identifiedRecord, extras := [] } none

/-- Another record before it has an identifier drawn, the same in either case. -/
theorem identifiedRecord_prebuilt :
    let supplied := fun held => Table.insert [("state", .string "new")] "related_objects"
      (.list ([.mapping [("state", .string "near")]] ++ held :: []))
    (Request.bareContext.build Catalog.objectKey (supplied (.mapping identifiedRecord))).Matches
      (Request.bareContext.build Catalog.objectKey (supplied (.related identifiedRelated))) ∧
    ∀ store, ((Entity.ofMapping Request.bareContext Catalog.objectKey
        (supplied (.mapping identifiedRecord))).run.run store).1 =
      ((Entity.ofMapping Request.bareContext Catalog.objectKey
        (supplied (.related identifiedRelated))).run.run store).1 :=
  @Entity.ofMapping_prebuilt Request.bareContext Catalog.objectKey relatedObjects
    (@EntityType.mem_of_field? Catalog.objectType "related_objects" _ rfl).1 identifiedRecord
    (.related identifiedRelated) (@Field.BuildsAlone.related _ _ _ _ _ {} rfl rfl fun _ => rfl)
    [("state", .string "new")] (.item [.mapping [("state", .string "near")]] [])

end Reachable

end Dossier
